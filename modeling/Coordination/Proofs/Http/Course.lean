import Coordination.Http.Layer
import Coordination.Text.Utf8
import Coordination.Proofs.Idempotency.Course

/-! # The course of a request

A request with an idempotency key checks the key first. If it acquires the key, it runs the handler and then settles the
claim by at most one request to the store; else it answers by what it found and asks nothing more.
-/
namespace Coordination.Http
open Idempotency (Checking Limits Standing Ticket afterClaim checkKey checking_of_leads claimRequest claimText responseText
  seen storeKey)
open Store (Cell Memory)
open Text.Utf8 (character toUTF8_of_fromUTF8?)

/-- All bytes of the value are printable ASCII characters or tabs. -/
def isVisible (value : ByteArray) : Bool := value.toList.all fun b => (0x20 ≤ b && b ≤ 0x7e) || b == 0x09

def characters (value : ByteArray) : String := String.ofList (value.toList.map character)

theorem visibleText?_eq (value : ByteArray) :
    visibleText? value = if isVisible value then some (characters value) else none := rfl

def Request.key? (request : Request) : Option String := (request.headers.get? keyHeader).bind visibleText?

/-- Requests that carry one key, in front of a handler that can answer anything with a valid status, next to store requests
that leave the key alone. -/
def traffic (limits : Limits) (key : String) : Traffic Request Response Response where
  program request := runOnce limits request (Program.once .work)
  admits _ request := request.key? = some key
  works response := 100 ≤ response.status ∧ response.status ≤ 999
  aside := Store.Request.leaves (storeKey key)

abbrev Event := Coordination.Event Request Response Response

abbrev Pool := Coordination.Pool Request Response Response

variable {limits : Limits} {key : String}

theorem traffic_owns : (traffic limits key).Owns (storeKey key) := Traffic.owns_of_leaves fun _ h => h

/-- The request to the store that settles the claim of a ticket by a response, if it takes any. -/
def settlement (limits : Limits) (ticket : Ticket) (response : Response) : Option Store.Request :=
  let releasing := Store.Request.compareAndDelete (storeKey ticket.key) ticket.sentinel
  if response.isServerError then some releasing
  else
    match response.body with
    | .broken => some releasing
    | .whole bytes =>
      match String.fromUTF8? bytes with
      | none => none
      | some text =>
        if limits.maxBodyBytes < text.utf8ByteSize then none
        else some (.set (storeKey ticket.key) (responseText (cacheable response text)) (some limits.cacheTtl))

/-- The response that reaches the client whose request ran the handler. -/
def delivered (response : Response) : Response :=
  if response.isServerError then response
  else
    match response.body with
    | .broken => .plain 500 "Internal server error"
    | .whole _ => response

theorem settle_eq {ticket : Ticket} (hkey : checkKey ticket.key = .ok ()) (response : Response) :
    (settle limits ticket response : Program Response Response) = match settlement limits ticket response with
      | none => .done (delivered response)
      | some r => .ask (.store r) fun _ => .done (delivered response) := by
  unfold settle settlement delivered
  by_cases herror : response.isServerError = true
  · simp only [if_pos herror]
    rfl
  · simp only [if_neg herror]
    cases response.body with
    | broken => rfl
    | whole bytes =>
      dsimp only
      cases String.fromUTF8? bytes with
      | none => rfl
      | some text =>
        dsimp only
        have hbody : (cacheable response text).body = text := rfl
        rw [Idempotency.run_complete, hkey, hbody]
        by_cases hsize : limits.maxBodyBytes < text.utf8ByteSize
        · simp only [if_pos hsize]
          rfl
        · simp only [if_neg hsize]
          show Program.ask _ _ = _
          congr
          funext reply
          cases reply <;> rfl

def afterCheck (limits : Limits) : Except Failure Standing → Program Response Response
  | .error failure => .done (.ofFailure failure)
  | .ok (.acquired ticket) => .ask .work (settle limits ticket)
  | .ok .inFlight => .done inProgress
  | .ok (.cached cached) => .done (replay cached)

theorem runOnce_eq {request : Request} (h : request.key? = some key) :
    runOnce limits request (Program.once .work) = (limits.check key).run.bind (afterCheck limits) := by
  obtain ⟨value, hvalue, hkey⟩ := Option.bind_eq_some_iff.1 h
  rw [runOnce, hvalue]
  simp only [hkey]
  show Program.bind _ _ = _
  congr

theorem run_call {request : Request} (h : request.key? = some key) (p : Pool)
    (moves : List (Move Request Response)) :
    p.run (traffic limits key) (.call request :: moves) =
      ({ p with tasks := p.tasks ++ [⟨request, (limits.check key).run.bind (afterCheck limits), .waiting⟩] } :
        Pool).run (traffic limits key) moves := by
  have hprogram : (traffic limits key).program request = (limits.check key).run.bind (afterCheck limits) := runOnce_eq h
  have hadmits : (traffic limits key).admits p.history request = true := decide_eq_true h
  rw [← hprogram]
  show Pool.run _ (if _ then _ else _) moves = _
  rw [if_pos hadmits]

def keyed : Request := ⟨[(keyHeader, "k".toUTF8)], none⟩

theorem key?_keyed : keyed.key? = some "k" := by decide +kernel

def brief : Limits := ⟨.ofMillis 5, .ofMillis 2, 99⟩

def wonLog (limits : Limits) (key t : String) (ms : Int) : List (Answered Response) :=
  [⟨.token, t⟩, ⟨.clock, ms⟩, ⟨.store (claimRequest limits key (claimText t ms)), .ok true⟩]

inductive Asking (limits : Limits) (key : String) :
    List (Answered Response) → (q : Ask) → (q.Answer Response → Program Response Response) → Prop
  | start {next} (h : ∀ t, (next t).result? = none) : Asking limits key [] .token next
  | drawn (t : String) {next} (h : ∀ ms, (next ms).result? = none) : Asking limits key [⟨.token, t⟩] .clock next
  | claiming (t : String) (ms : Int) : Asking limits key [⟨.token, t⟩, ⟨.clock, ms⟩]
      (.store (claimRequest limits key (claimText t ms)))
      fun reply => (afterClaim key (claimText t ms) reply).bind (afterCheck limits)
  | looking (t : String) (ms : Int) : Asking limits key
      [⟨.token, t⟩, ⟨.clock, ms⟩, ⟨.store (claimRequest limits key (claimText t ms)), .ok false⟩]
      (.store (.get (storeKey key))) fun reply => afterCheck limits (seen reply)
  | working (t : String) (ms : Int) :
      Asking limits key (wonLog limits key t ms) .work (settle limits ⟨key, claimText t ms⟩)
  | settling (t : String) (ms : Int) (w : Response) {r : Store.Request}
      (h : settlement limits ⟨key, claimText t ms⟩ w = some r) :
      Asking limits key (wonLog limits key t ms ++ [⟨.work, w⟩]) (.store r) fun _ => .done (delivered w)

theorem afterCheck_leads_ask {standing : Except Failure Standing} {log : List (Answered Response)} {q : Ask}
    {next : q.Answer Response → Program Response Response} (h : (afterCheck limits standing).Leads log (.ask q next)) :
    ∃ ticket, standing = .ok (.acquired ticket) := by
  rcases standing with failure | ticket | _ | cached
  · exact absurd h Program.leads_done_ask
  · exact ⟨ticket, rfl⟩
  · exact absurd h Program.leads_done_ask
  · exact absurd h Program.leads_done_ask

theorem checkKey_of_leads {request : Request} (hkey : request.key? = some key) {log : List (Answered Response)} {q : Ask}
    {next : q.Answer Response → Program Response Response}
    (h : (runOnce limits request (Program.once .work)).Leads log (.ask q next)) : checkKey key = .ok () := by
  rw [runOnce_eq hkey, Idempotency.run_check] at h
  cases hcheck : checkKey key with
  | ok _ => rfl
  | error failure =>
    rw [hcheck] at h
    exact absurd h Program.leads_done_ask

theorem asking_of_leads {request : Request} (hkey : request.key? = some key) {log : List (Answered Response)} {q : Ask}
    {next : q.Answer Response → Program Response Response}
    (h : (runOnce limits request (Program.once .work)).Leads log (.ask q next)) : Asking limits key log q next := by
  have hok := checkKey_of_leads hkey h
  rw [runOnce_eq hkey] at h
  rcases Program.leads_bind h with ⟨rest, hcheck, heq⟩ | ⟨log', standing, x, more, rfl, hcheck, hafter⟩
  · cases checking_of_leads hcheck with
    | refused hfail => cases heq
    | failed t ms failure => cases heq
    | start _ =>
      cases heq
      exact .start fun t => rfl
    | drawn t =>
      cases heq
      exact .drawn t fun ms => rfl
    | claiming t ms =>
      cases heq
      exact .claiming t ms
    | looking t ms =>
      cases heq
      exact .looking t ms
    | acquired t ms =>
      cases heq
      exact .working t ms
    | looked t ms reply =>
      have hask : (afterCheck limits (seen reply)).Leads [] (.ask q next) := heq ▸ .start
      obtain ⟨ticket, hseen⟩ := afterCheck_leads_ask hask
      exact absurd hseen (Idempotency.seen_ne_acquired reply ticket)
  · obtain ⟨ticket, rfl⟩ := afterCheck_leads_ask hafter
    obtain ⟨t, ms, rfl, rfl⟩ : ∃ t ms, log' = wonLog limits key t ms ∧ ticket = ⟨key, claimText t ms⟩ := by
      generalize hend : Program.done (Except.ok (Standing.acquired ticket)) = rest at hcheck
      cases checking_of_leads hcheck with
      | acquired t ms =>
        cases hend
        exact ⟨t, ms, rfl, rfl⟩
      | looked t ms reply =>
        injection hend with hseen
        exact absurd hseen.symm (Idempotency.seen_ne_acquired reply ticket)
      | _ => cases hend
    rcases Program.leads_ask hafter with ⟨hnil, _⟩ | ⟨w, rest, hcons, hsettle⟩
    · cases hnil
    · cases hcons
      rw [settle_eq hok] at hsettle
      cases hr : settlement limits ⟨key, claimText t ms⟩ w with
      | none =>
        rw [hr] at hsettle
        exact absurd hsettle Program.leads_done_ask
      | some r =>
        rw [hr] at hsettle
        rcases Program.leads_ask hsettle with ⟨rfl, heq⟩ | ⟨_, _, _, hdone⟩
        · cases heq
          exact .settling t ms w hr
        · exact absurd hdone Program.leads_done_ask

theorem Asking.won {log : List (Answered Response)} {next : Response → Program Response Response}
    (h : Asking limits key log .work next) :
    ∃ t ms, log = wonLog limits key t ms ∧ next = settle limits ⟨key, claimText t ms⟩ := by
  cases h with
  | working t ms => exact ⟨t, ms, rfl, rfl⟩

theorem mem_wonLog (t : String) (ms : Int) :
    (⟨.store (claimRequest limits key (claimText t ms)), .ok true⟩ : Answered Response) ∈ wonLog limits key t ms := by
  simp [wonLog]

/-- A claim is settled by giving it up, or by keeping a text body that is not too long. -/
theorem settlement_cases {ticket : Ticket} {w : Response} {r : Store.Request} (h : settlement limits ticket w = some r) :
    r = .compareAndDelete (storeKey ticket.key) ticket.sentinel ∨
      ∃ text, r = .set (storeKey ticket.key) (responseText (cacheable w text)) (some limits.cacheTtl) := by
  unfold settlement at h
  dsimp only at h
  split at h
  · exact .inl (Option.some.inj h).symm
  · split at h
    · exact .inl (Option.some.inj h).symm
    · split at h
      · cases h
      · split at h
        · cases h
        · exact .inr ⟨_, (Option.some.inj h).symm⟩

def Keepable (limits : Limits) (bytes : ByteArray) : Prop :=
  bytes.size ≤ limits.maxBodyBytes ∧ (String.fromUTF8? bytes).isSome

theorem settlement_of_keepable {ticket : Ticket} {w : Response} {bytes : ByteArray} {text : String}
    (hstatus : w.isServerError = false) (hbody : w.body = .whole bytes) (htext : String.fromUTF8? bytes = some text)
    (hsize : bytes.size ≤ limits.maxBodyBytes) : settlement limits ticket w =
      some (.set (storeKey ticket.key) (responseText (cacheable w text)) (some limits.cacheTtl)) := by
  have hfits : ¬ limits.maxBodyBytes < text.utf8ByteSize := by
    rw [← toUTF8_of_fromUTF8? htext] at hsize
    exact Nat.not_lt.2 hsize
  unfold settlement
  simp only [hstatus, hbody, htext, if_neg hfits, Bool.false_eq_true, if_false]

theorem settlement_eq_none {ticket : Ticket} {w : Response} {bytes : ByteArray} (hstatus : w.isServerError = false)
    (hbody : w.body = .whole bytes) (hkeep : ¬ Keepable limits bytes) : settlement limits ticket w = none := by
  unfold settlement
  simp only [hstatus, hbody, Bool.false_eq_true, if_false]
  cases hutf : String.fromUTF8? bytes with
  | none => rfl
  | some text =>
    have hsize : text.utf8ByteSize = bytes.size := congrArg ByteArray.size (toUTF8_of_fromUTF8? hutf)
    have hlong : limits.maxBodyBytes < text.utf8ByteSize := by
      rw [hsize]
      exact Nat.lt_of_not_le fun hle => hkeep ⟨hle, by rw [hutf]; rfl⟩
    simp only [if_pos hlong]

end Coordination.Http
