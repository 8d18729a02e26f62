import Coordination.Proofs.Http.Course
import Coordination.Proofs.RateLimit.Course

/-! # Who reaches the handler

Layers stand in front of the handler in any order, over a store that answers as it likes. Each layer asks its own questions
before it lets a request in, so the handler runs once if every layer has let the request in, and not at all if one has not.
A request to the store that fails on the way in turns the request away, and no layer further out changes the response.
-/
namespace Coordination.Http
open Coordination.Action Program
open Idempotency (Limits Standing Ticket checkKey)

variable (services : Services) (request : Request)

def grants : Except Failure RateLimit.Decision → Bool
  | .ok decision => !decision.isBlocked
  | .error _ => false

def acquires : Except Failure Standing → Bool
  | .ok (.acquired _) => true
  | _ => false

/-- With the answers of the log the layer's own check has come to its end, and the layer lets the request in or not. -/
def Layer.Decides (log : List (Answered Response)) (letsIn : Bool) : Layer → Prop
  | .rateLimit => ∃ outcome, letsIn = grants outcome ∧
      (services.rateLimit.check (request.context.getD {}) : Action Response RateLimit.Decision).run.Leads log (.done outcome)
  | .idempotency =>
    match request.headers.get? keyHeader with
    | none => letsIn = true ∧ log = []
    | some value =>
      match visibleText? value with
      | none => letsIn = false ∧ log = []
      | some key => ∃ outcome, letsIn = acquires outcome ∧
          (services.idempotency.check key : Action Response Standing).run.Leads log (.done outcome)

/-- With the answers of the log every layer has let the request in, or a layer has turned it away that those further out
had let it through to. -/
inductive Decided : Bool → List Layer → List (Answered Response) → Prop
  | letIn : Decided true [] []
  | turnedAway {layer : Layer} {inner : List Layer} {own : List (Answered Response)}
    (h : layer.Decides services request own false) : Decided false (layer :: inner) own
  | through {layer : Layer} {inner : List Layer} {own rest : List (Answered Response)} {letsIn : Bool}
    (h : layer.Decides services request own true) (hrest : Decided letsIn inner rest) :
    Decided letsIn (layer :: inner) (own ++ rest)

/-- What a layer makes of its own check. -/
inductive Verdict where
  | letIn
  /-- It lets the request in and settles the claim by the response. -/
  | claimed (ticket : Ticket)
  | refused (response : Response)

def opens : Except Failure Verdict → Bool
  | .ok .letIn | .ok (.claimed _) => true
  | _ => false

def verdictOfDecision (decision : RateLimit.Decision) : Verdict :=
  if decision.isBlocked then .refused (tooManyRequests decision) else .letIn

def verdictOfStanding : Standing → Verdict
  | .acquired ticket => .claimed ticket
  | .inFlight => .refused inProgress
  | .cached cached => .refused (replay cached)

def Layer.gate : Layer → Action Response Verdict
  | .rateLimit => do return verdictOfDecision (← services.rateLimit.check (request.context.getD {}))
  | .idempotency =>
    match request.headers.get? keyHeader with
    | none => pure .letIn
    | some value =>
      match visibleText? value with
      | none => pure (.refused (.plain 400 "Invalid Idempotency-Key header"))
      | some key => do return verdictOfStanding (← services.idempotency.check key)

def behind (next : Program Response Response) : Except Failure Verdict → Program Response Response
  | .error failure => .done (.ofFailure failure)
  | .ok .letIn => next
  | .ok (.claimed ticket) => next.bind (settle services.idempotency ticket)
  | .ok (.refused response) => .done response

theorem wrap_eq (next : Program Response Response) (layer : Layer) :
    layer.wrap services request next = (layer.gate services request).run.bind (behind services next) := by
  cases layer with
  | rateLimit =>
    rw [Layer.gate, run_bind, Program.bind_assoc, Layer.wrap, limitRate]
    show Program.bind _ _ = Program.bind _ _
    congr
    funext outcome
    cases outcome with
    | error failure => rfl
    | ok decision =>
      show (if decision.isBlocked then _ else _) = behind services next (.ok (verdictOfDecision decision))
      rw [verdictOfDecision]
      split <;> rfl
  | idempotency =>
    rw [Layer.gate, Layer.wrap, runOnce]
    cases request.headers.get? keyHeader with
    | none => rfl
    | some value =>
      dsimp only
      cases visibleText? value with
      | none => rfl
      | some key =>
        dsimp only
        rw [run_bind, Program.bind_assoc]
        show Program.bind _ _ = Program.bind _ _
        congr
        funext outcome
        rcases outcome with failure | ticket | _ | cached <;> rfl

theorem serve_cons (layer : Layer) (inner : List Layer) : serve services request (layer :: inner) =
    (layer.gate services request).run.bind (behind services (serve services request inner)) :=
  wrap_eq services request (serve services request inner) layer

/-- The requests of rate limits and of idempotency. -/
inductive Sent : Store.Request → Prop
  | limit {context : RateLimit.Context} {r : Store.Request} (h : RateLimit.SentFor context r) : Sent r
  | record {key : String} {r : Store.Request} (h : Idempotency.Sent key r) : Sent r

theorem gate_strict (layer : Layer) : Strict Sent (layer.gate services request) := by
  cases layer with
  | rateLimit =>
    exact strict_bind ((RateLimit.check_strict services.rateLimit _).mono fun _ => .limit) fun _ => strict_pure _
  | idempotency =>
    rw [Layer.gate]
    cases request.headers.get? keyHeader with
    | none => exact strict_pure _
    | some value =>
      dsimp only
      cases visibleText? value with
      | none => exact strict_pure _
      | some key => exact strict_bind ((Idempotency.check_strict ..).mono fun _ => .record) fun _ => strict_pure _

variable {services request} {log : List (Answered Response)}

theorem grants_eq (outcome : Except Failure RateLimit.Decision) : grants outcome = opens (outcome.map verdictOfDecision) := by
  cases outcome with
  | error failure => rfl
  | ok decision => cases hblocked : decision.isBlocked <;> simp [grants, opens, Except.map, verdictOfDecision, hblocked]

theorem acquires_eq (outcome : Except Failure Standing) : acquires outcome = opens (outcome.map verdictOfStanding) := by
  rcases outcome with failure | ticket | _ | cached <;> rfl

theorem ends_return {α : Type} {x : Action Response α} {verdict : α → Verdict} {test : Except Failure α → Bool}
    (htest : ∀ o, test o = opens (o.map verdict)) {letsIn : Bool} : (∃ o, letsIn = test o ∧ x.run.Leads log (.done o)) ↔
      ∃ outcome, letsIn = opens outcome ∧ (x >>= fun a => pure (verdict a)).run.Leads log (.done outcome) := by
  simp only [run_return, leads_map_done, htest]
  constructor
  · rintro ⟨o, ho, hleads⟩
    exact ⟨_, ho, o, rfl, hleads⟩
  · rintro ⟨_, ho, o, rfl, hleads⟩
    exact ⟨o, ho, hleads⟩

theorem ends_pure {verdict : Verdict} {b letsIn : Bool} (hb : b = opens (.ok verdict)) : letsIn = b ∧ log = [] ↔
    ∃ outcome, letsIn = opens outcome ∧ (pure verdict : Action Response Verdict).run.Leads log (.done outcome) := by
  constructor
  · rintro ⟨rfl, rfl⟩
    exact ⟨.ok verdict, hb, .start⟩
  · rintro ⟨outcome, hletsIn, hleads⟩
    obtain ⟨hlog, hdone⟩ := leads_done hleads
    cases hdone
    exact ⟨hletsIn.trans hb.symm, hlog⟩

theorem decides_iff {layer : Layer} {letsIn : Bool} : layer.Decides services request log letsIn ↔
    ∃ outcome, letsIn = opens outcome ∧ (layer.gate services request).run.Leads log (.done outcome) := by
  cases layer with
  | rateLimit => exact ends_return grants_eq
  | idempotency =>
    rw [Layer.Decides, Layer.gate]
    cases request.headers.get? keyHeader with
    | none => exact ends_pure rfl
    | some value =>
      dsimp only
      cases visibleText? value with
      | none => exact ends_pure rfl
      | some key => exact ends_return acquires_eq

theorem settle_worksAtMost (limits : Limits) (ticket : Ticket) (response : Response) :
    (settle limits ticket response : Program Response Response).WorksAtMost 0 := by
  unfold settle
  split
  · exact fun _ => trivial
  · split
    · exact fun _ => trivial
    · split
      · trivial
      · rw [Idempotency.run_complete]
        cases checkKey ticket.key with
        | error failure => trivial
        | ok _ =>
          dsimp only
          split
          · trivial
          · intro reply
            cases reply <;> trivial

theorem settle_sends (limits : Limits) (ticket : Ticket) (response : Response) :
    (settle limits ticket response : Program Response Response).Sends Sent := by
  have hrelease := (Idempotency.release_strict (ω := Response) ticket).sends.mono fun _ => Sent.record
  unfold settle
  split
  · exact hrelease.bind fun _ => trivial
  · split
    · exact hrelease.bind fun _ => trivial
    · split
      · trivial
      · exact ((Idempotency.complete_strict ..).sends.mono fun _ => .record).bind fun _ => trivial

theorem settle_comesTo (limits : Limits) (ticket : Ticket) {response : Response} {bytes : ByteArray}
    (h : response.body = .whole bytes) : (settle limits ticket response : Program Response Response).ComesTo response := by
  unfold settle
  split
  · exact fun _ => rfl
  · rw [h]
    dsimp only
    split
    · rfl
    · rw [Idempotency.run_complete]
      cases checkKey ticket.key with
      | error failure => rfl
      | ok _ =>
        dsimp only
        split
        · rfl
        · intro reply
          cases reply <;> rfl

theorem body_ofFailure (failure : Failure) : ∃ bytes, (Response.ofFailure failure).body = .whole bytes := by
  cases failure <;> exact ⟨_, rfl⟩

theorem behind_worksAtMost {next : Program Response Response} {n : Nat} (h : next.WorksAtMost n)
    (outcome : Except Failure Verdict) : (behind services next outcome).WorksAtMost n := by
  rcases outcome with failure | _ | ticket | response
  · trivial
  · exact h
  · exact h.bind fun response => settle_worksAtMost services.idempotency ticket response
  · trivial

theorem serve_worksAtMost (services : Services) (request : Request) (layers : List Layer) : (serve services request layers).WorksAtMost 1 := by
  induction layers with
  | nil => exact ⟨0, rfl, fun _ => trivial⟩
  | cons layer inner ih =>
    rw [serve_cons]
    exact ((gate_strict services request layer).failsFast.worksAtMost 0).bind fun outcome => behind_worksAtMost ih outcome

theorem serve_sends (services : Services) (request : Request) (layers : List Layer) :
    (serve services request layers).Sends Sent := by
  induction layers with
  | nil => exact fun _ => trivial
  | cons layer inner ih =>
    rw [serve_cons]
    refine (gate_strict services request layer).sends.bind fun outcome => ?_
    rcases outcome with failure | _ | ticket | response
    · trivial
    · exact ih
    · exact ih.bind fun response => settle_sends services.idempotency ticket response
    · trivial

/-- A layer that lets the request in hands it on, and only settles the claim afterwards. -/
theorem behind_of_opens (services : Services) {outcome : Except Failure Verdict} (h : opens outcome = true) :
    ∃ finish : Response → Program Response Response, (∀ next, behind services next outcome = next.bind finish) ∧
      (∀ response, (finish response).WorksAtMost 0) ∧
      ∀ response bytes, response.body = .whole bytes → (finish response).ComesTo response := by
  rcases outcome with failure | _ | ticket | response
  · cases h
  · exact ⟨.done, fun next => next.bind_done.symm, fun _ => trivial, fun _ _ _ => rfl⟩
  · exact ⟨settle services.idempotency ticket, fun _ => rfl, fun response => settle_worksAtMost _ ticket response,
      fun _ _ hbody => settle_comesTo _ ticket hbody⟩
  · cases h

theorem behind_of_not_opens (services : Services) {outcome : Except Failure Verdict} (h : opens outcome = false) :
    ∃ response, ∀ next, behind services next outcome = .done response := by
  rcases outcome with failure | _ | ticket | response
  · exact ⟨.ofFailure failure, fun _ => rfl⟩
  · cases h
  · cases h
  · exact ⟨response, fun _ => rfl⟩

theorem Decided.reaches {layers : List Layer} (h : Decided services request true layers log) :
    ∃ next, (serve services request layers).Leads log (.ask .work next) := by
  generalize hletsIn : true = letsIn at h
  induction h with
  | letIn => exact ⟨_, .start⟩
  | turnedAway => cases hletsIn
  | through hlayer _ ih =>
    obtain ⟨outcome, hopens, hgate⟩ := decides_iff.1 hlayer
    obtain ⟨next, hinner⟩ := ih hletsIn
    obtain ⟨finish, hbehind, _, _⟩ := behind_of_opens services hopens.symm
    refine ⟨fun w => (next w).bind finish, ?_⟩
    rw [serve_cons]
    apply hgate.after
    rw [hbehind]
    exact hinner.within finish

theorem decided_of_work {layers : List Layer} {next : Response → Program Response Response}
    (h : (serve services request layers).Leads log (.ask .work next)) : Decided services request true layers log := by
  induction layers generalizing log next with
  | nil =>
    rcases leads_ask h with ⟨rfl, _⟩ | ⟨_, _, _, hdone⟩
    · exact .letIn
    · exact absurd hdone leads_done_ask
  | cons layer inner ih =>
    rw [serve_cons] at h
    rcases asks_of_leads_bind h with ⟨next', hgate, _⟩ | ⟨own, outcome, rest, rfl, hgate, hbehind⟩
    · exact absurd ((gate_strict services request layer).failsFast.of_leads hgate) id
    · cases hopens : opens outcome with
      | false =>
        obtain ⟨response, hdone⟩ := behind_of_not_opens services hopens
        exact absurd (hdone _ ▸ hbehind) leads_done_ask
      | true =>
        obtain ⟨finish, hfinish, hidle, _⟩ := behind_of_opens services hopens
        rw [hfinish] at hbehind
        rcases asks_of_leads_bind hbehind with ⟨_, hinner, _⟩ | ⟨_, response, _, _, _, hsettles⟩
        · exact .through (decides_iff.2 ⟨outcome, hopens.symm, hgate⟩) (ih hinner)
        · exact absurd rfl (((hidle response).idle hsettles).2 next)

theorem decided_of_done {layers : List Layer} {response : Response}
    (h : (serve services request layers).Leads log (.done response)) :
    ∃ early b, early <+: log ∧ Decided services request b layers early := by
  induction layers generalizing log response with
  | nil => exact ⟨[], true, List.nil_prefix, .letIn⟩
  | cons layer inner ih =>
    rw [serve_cons] at h
    obtain ⟨own, outcome, rest, rfl, hgate, hbehind⟩ := leads_bind_done h
    cases hopens : opens outcome with
    | false =>
      exact ⟨own, false, List.prefix_append own rest, .turnedAway (decides_iff.2 ⟨outcome, hopens.symm, hgate⟩)⟩
    | true =>
      obtain ⟨finish, hfinish, _, _⟩ := behind_of_opens services hopens
      rw [hfinish] at hbehind
      obtain ⟨within, _, after, rfl, hinner, _⟩ := leads_bind_done hbehind
      obtain ⟨early, b, hearly, hdecided⟩ := ih hinner
      refine ⟨own ++ early, b, ?_, .through (decides_iff.2 ⟨outcome, hopens.symm, hgate⟩) hdecided⟩
      exact (List.prefix_append_right_inj own).2 (hearly.trans (List.prefix_append within after))

/-- While the layers have not decided no handler has run, and a request to the store that fails settles the response. -/
theorem fails_undecided {layers : List Layer} {r : Store.Request} {next : Except Failure r.Reply → Program Response Response}
    (h : (serve services request layers).Leads log (.ask (.store r) next))
    (hundecided : ∀ early b, early <+: log → ¬ Decided services request b layers early) :
    log.countP isWork = 0 ∧
      ∀ failure, (next (.error failure)).WorksAtMost 0 ∧ (next (.error failure)).ComesTo (.ofFailure failure) := by
  induction layers generalizing log next with
  | nil => exact absurd .letIn (hundecided [] true List.nil_prefix)
  | cons layer inner ih =>
    have hfast := (gate_strict services request layer).failsFast
    rw [serve_cons] at h
    rcases asks_of_leads_bind h with ⟨next', hgate, rfl⟩ | ⟨own, outcome, rest, rfl, hgate, hbehind⟩
    · refine ⟨((hfast.worksAtMost 0).idle hgate).1, fun failure => ?_⟩
      dsimp only
      rw [(hfast.of_leads hgate).1 failure]
      exact ⟨trivial, rfl⟩
    · cases hopens : opens outcome with
      | false =>
        exact absurd (.turnedAway (decides_iff.2 ⟨outcome, hopens.symm, hgate⟩))
          (hundecided own false (List.prefix_append own rest))
      | true =>
        have hthrough : ∀ early b, early <+: rest → ¬ Decided services request b inner early := by
          intro early b hearly hdecided
          exact hundecided (own ++ early) b ((List.prefix_append_right_inj own).2 hearly)
            (.through (decides_iff.2 ⟨outcome, hopens.symm, hgate⟩) hdecided)
        obtain ⟨finish, hfinish, hidle, hkeeps⟩ := behind_of_opens services hopens
        rw [hfinish] at hbehind
        rcases asks_of_leads_bind hbehind with ⟨next', hinner, rfl⟩ | ⟨within, _, after, rfl, hdone, _⟩
        · obtain ⟨hcount, hnext⟩ := ih hinner hthrough
          refine ⟨?_, fun failure => ?_⟩
          · rw [List.countP_append, ((hfast.worksAtMost 0).idle hgate).1, hcount]
          · obtain ⟨hworks, hcomes⟩ := hnext failure
            obtain ⟨bytes, hbody⟩ := body_ofFailure failure
            exact ⟨hworks.bind hidle, hcomes.bind (hkeeps _ bytes hbody)⟩
        · obtain ⟨early, b, hearly, hdecided⟩ := decided_of_done hdone
          exact absurd hdecided (hthrough early b (hearly.trans (List.prefix_append within after)))

def statusOf : Failure → Nat
  | .unavailable _ => 503
  | .invalidArgument _ => 400
  | _ => 500

theorem status_ofFailure (failure : Failure) : (Response.ofFailure failure).status = statusOf failure := by
  cases failure <;> rfl

/-- Whatever layers stand in front of the handler and whatever the store answers, the handler runs at most once, and it
runs exactly if every layer lets the request in. A request to the store that fails before the layers have decided keeps
the handler from running, and the status of the response tells which kind of failure it was. -/
theorem handler_runs_iff_let_in (services : Services) (request : Request) (layers : List Layer) (world : World Response) :
    let log := ((serve services request layers).course world).1
    let response := ((serve services request layers).course world).2
    log.countP isWork ≤ 1 ∧
      (log.countP isWork = 1 ↔ ∃ own, own <+: log ∧ Decided services request true layers own) ∧
      ∀ own r failure, own ++ [⟨.store r, .error failure⟩] <+: log →
        (∀ early letsIn, early <+: own → ¬ Decided services request letsIn layers early) →
        log.countP isWork = 0 ∧ response.status = statusOf failure := by
  intro log response
  have hcourse : (serve services request layers).Leads log (.done response) := leads_course world _
  obtain ⟨k, hatMost, _⟩ := (serve_worksAtMost services request layers).of_leads hcourse
  refine ⟨by omega, ⟨?_, ?_⟩, ?_⟩
  · intro hone
    obtain ⟨own, a, rest, hlog⟩ := exists_work (by omega : 0 < log.countP isWork)
    rw [hlog] at hcourse
    obtain ⟨_, hown, hrest⟩ := leads_append hcourse
    obtain ⟨next, rfl, _⟩ := leads_cons hrest
    exact ⟨own, hlog ▸ List.prefix_append own _, decided_of_work hown⟩
  · rintro ⟨own, ⟨rest, hlog⟩, hdecided⟩
    obtain ⟨next, hreaches⟩ := hdecided.reaches
    obtain ⟨between, hbetween, hrest⟩ := leads_append (hlog ▸ hcourse)
    cases hbetween.unique hreaches
    rcases leads_ask hrest with ⟨_, hdone⟩ | ⟨a, log', rfl, _⟩
    · cases hdone
    · have hwork : (⟨.work, a⟩ : Answered Response) ∈ log := by simp [← hlog]
      have : 0 < log.countP isWork := List.countP_pos_iff.2 ⟨_, hwork, rfl⟩
      omega
  · rintro own r failure ⟨rest, hlog⟩ hundecided
    rw [List.append_assoc, List.singleton_append] at hlog
    rw [← hlog] at hcourse
    obtain ⟨_, hown, hrest⟩ := leads_append hcourse
    obtain ⟨next, rfl, hafter⟩ := leads_cons hrest
    obtain ⟨hcount, hnext⟩ := fails_undecided hown hundecided
    obtain ⟨hworks, hcomes⟩ := hnext failure
    have hstatus : response = .ofFailure failure := hcomes.of_leads hafter
    refine ⟨?_, hstatus ▸ status_ofFailure failure⟩
    rw [← hlog, List.countP_append, hcount, List.countP_cons, (hworks.idle hafter).1]
    rfl

end Coordination.Http
