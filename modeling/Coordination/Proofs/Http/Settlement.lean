import Coordination.Proofs.Http.Course
import Coordination.Proofs.Turn.World

/-! # What a response leaves behind

A request that has acquired its key runs the handler, and the response settles the claim. A server error or a body that
breaks gives the claim up if it is still the record of the key, a text body that is not too long takes its place, and any
other body leaves it to its end. What the client gets does not depend on the store.
-/
namespace Coordination.Http
open Idempotency (Limits afterClaim claimRequest claimText responseText storeKey token_eq_of_claimText not_isClaim_responseText)
open Store (Entry Memory)

/-- A server error, or a body that breaks. -/
def GivesUp (w : Response) : Prop := w.isServerError = true ∨ w.body = .broken

/-- The response is no server error, and its body is a text that is not too long. -/
def Keeps (limits : Limits) (w : Response) (text : String) : Prop :=
  w.isServerError = false ∧ ∃ bytes, w.body = .whole bytes ∧ String.fromUTF8? bytes = some text ∧
    bytes.size ≤ limits.maxBodyBytes

/-- A record that is not the claim of the token's owner: a claim with another token, or a response. -/
def Foreign (token text : String) : Prop :=
  (∃ other ms, other ≠ token ∧ text = claimText other ms) ∨ ∃ response, text = responseText response

theorem Foreign.ne {token text : String} (h : Foreign token text) (ms : Int) : text ≠ claimText token ms := by
  rintro rfl
  rcases h with ⟨other, ms', hne, heq⟩ | ⟨response, heq⟩
  · exact hne (token_eq_of_claimText heq).symm
  · exact not_isClaim_responseText response ⟨token, ms, heq.symm⟩

/-- What a response makes of the record of a key at an instant, for the request that claimed it. Of a response that is
kept the record holds the status, the text of the body and that of the first content type, if it is visible. -/
structure Settled (limits : Limits) (key claim : String) (w : Response) (now : Instant) (m m' : Memory) : Prop where
  frame : m.SameBut m' now (storeKey key)
  givenUp : GivesUp w → (m.visible? now (storeKey key)).map Entry.value = some claim → m'.Shows now (storeKey key) none
  spared : GivesUp w → (m.visible? now (storeKey key)).map Entry.value ≠ some claim →
    ∀ c, m.Shows now (storeKey key) c → m'.Shows now (storeKey key) c
  kept : ∀ text, Keeps limits w text → m'.Shows now (storeKey key)
    (some ⟨responseText ⟨w.status, text, ((w.headers.get? "content-type").filter isVisible).map characters⟩,
      some (now.advance limits.cacheTtl)⟩)
  left : ¬ GivesUp w → (∀ text, ¬ Keeps limits w text) →
    ∀ c, m.Shows now (storeKey key) c → m'.Shows now (storeKey key) c

variable {limits : Limits} {key claim : String} {w : Response} {now : Instant}

theorem cacheable_eq (w : Response) (text : String) :
    cacheable w text = ⟨w.status, text, ((w.headers.get? "content-type").filter isVisible).map characters⟩ := by
  rw [cacheable]
  cases w.headers.get? "content-type" with
  | none => rfl
  | some value =>
    rw [Option.bind_some, visibleText?_eq]
    cases h : isVisible value <;> simp [Option.filter, h]

theorem Keeps.not_givesUp {text : String} (h : Keeps limits w text) : ¬ GivesUp w := by
  obtain ⟨hstatus, bytes, hbody, _⟩ := h
  rintro (herror | hbroken)
  · rw [hstatus] at herror
    cases herror
  · rw [hbody] at hbroken
    cases hbroken

theorem settlement_of_givesUp (h : GivesUp w) :
    settlement limits ⟨key, claim⟩ w = some (.compareAndDelete (storeKey key) claim) := by
  unfold settlement
  by_cases herror : w.isServerError = true
  · simp only [if_pos herror]
  · simp only [if_neg herror, h.resolve_left herror]

theorem settlement_of_keeps {text : String} (h : Keeps limits w text) : settlement limits ⟨key, claim⟩ w =
    some (.set (storeKey key) (responseText (cacheable w text)) (some limits.cacheTtl)) := by
  obtain ⟨hstatus, bytes, hbody, htext, hsize⟩ := h
  exact settlement_of_keepable hstatus hbody htext hsize

theorem settlement_of_left (hup : ¬ GivesUp w) (hkeep : ∀ text, ¬ Keeps limits w text) :
    settlement limits ⟨key, claim⟩ w = none := by
  have hstatus : w.isServerError = false := Bool.eq_false_iff.2 fun herror => hup (.inl herror)
  cases hbody : w.body with
  | broken => exact absurd (.inr hbody) hup
  | whole bytes =>
    refine settlement_eq_none hstatus hbody ?_
    rintro ⟨hsize, htext⟩
    obtain ⟨text, htext⟩ := Option.isSome_iff_exists.1 htext
    exact hkeep text ⟨hstatus, bytes, hbody, htext, hsize⟩

theorem settled_of_release (limits : Limits) (key claim : String) (now : Instant) (m : Memory) (h : GivesUp w) :
    ∃ gone m', m.serve now (.compareAndDelete (storeKey key) claim) = (.ok (.ok gone), m') ∧
      Settled limits key claim w now m m' := by
  have hkept : ∀ text, ¬ Keeps limits w text := fun text hkeep => hkeep.not_givesUp h
  obtain ⟨m', hframe, ⟨hm, hseen, hgone⟩ | ⟨hm, hseen, hsame⟩⟩ := m.compareAndDelete_cases now (storeKey key) claim
  · exact ⟨true, m', hm, hframe, fun _ _ => hgone, fun _ hne => absurd hseen hne,
      fun text hkeep => absurd hkeep (hkept text), fun hup => absurd h hup⟩
  · exact ⟨false, m', hm, hframe, fun _ heq => absurd heq hseen, fun _ _ => hsame,
      fun text hkeep => absurd hkeep (hkept text), fun hup => absurd h hup⟩

theorem settled_of_keep {claim : String} {m : Memory} (hlong : limits.cacheTtl.millis ≠ 0)
    (hends : (now.add? limits.cacheTtl).isSome) {text : String} (h : Keeps limits w text) :
    ∃ m', m.serve now (.set (storeKey key) (responseText (cacheable w text)) (some limits.cacheTtl)) = (.ok (.ok ()), m') ∧
      Settled limits key claim w now m m' := by
  obtain ⟨m', hframe, ⟨_, hpast, _⟩ | ⟨hm, _, hshows⟩⟩ :=
    m.set_cases now (storeKey key) (responseText (cacheable w text)) hlong
  · rw [hpast] at hends
    cases hends
  · refine ⟨m', hm, hframe, ?_, ?_, ?_, ?_⟩
    · exact fun hup => absurd hup h.not_givesUp
    · exact fun hup => absurd hup h.not_givesUp
    · intro text' h'
      obtain ⟨_, bytes, hbody, htext, _⟩ := h
      obtain ⟨_, bytes', hbody', htext', _⟩ := h'
      cases hbody.symm.trans hbody'
      cases htext.symm.trans htext'
      exact cacheable_eq w text ▸ hshows
    · exact fun _ hnone => absurd h (hnone text)

theorem settled_of_left {claim : String} {m : Memory} (hup : ¬ GivesUp w) (hkeep : ∀ text, ¬ Keeps limits w text) :
    Settled limits key claim w now m m where
  frame := m.sameBut_refl now (storeKey key)
  givenUp h := absurd h hup
  spared h := absurd h hup
  kept text h := absurd h (hkeep text)
  left _ _ _ hc := hc

/-- The request that settles a claim is served, and it settles it. -/
theorem serve_settlement (hlong : limits.cacheTtl.millis ≠ 0) (hends : (now.add? limits.cacheTtl).isSome)
    (key claim : String) (w : Response) (m : Memory) : match settlement limits ⟨key, claim⟩ w with
      | none => Settled limits key claim w now m m
      | some r => ∃ reply m', m.serve now r = (.ok reply, m') ∧ Settled limits key claim w now m m' := by
  by_cases hup : GivesUp w
  · obtain ⟨gone, m', hm, hsettled⟩ := settled_of_release limits key claim now m hup
    rw [settlement_of_givesUp hup]
    exact ⟨_, m', hm, hsettled⟩
  · by_cases hkeep : ∃ text, Keeps limits w text
    · obtain ⟨text, hkeep⟩ := hkeep
      obtain ⟨m', hm, hsettled⟩ := settled_of_keep hlong hends hkeep
      rw [settlement_of_keeps hkeep]
      exact ⟨_, m', hm, hsettled⟩
    · have hnone := not_exists.1 hkeep
      rw [settlement_of_left hup hnone]
      exact settled_of_left hup hnone

/-- Where a request goes on after its handler there is at most one request to the store, and it is served at once. -/
theorem step_settle {p : Pool} {i : Nat} {request : Request} {ticket : Idempotency.Ticket}
    (hkey : Idempotency.checkKey ticket.key = .ok ())
    (ht : p.tasks[i]? = some ⟨request, settle limits ticket w, .waiting⟩)
    (hserve : match settlement limits ticket w with
      | none => Settled limits key claim w p.now p.memory p.memory
      | some r => ∃ reply m', p.memory.serve p.now r = (.ok reply, m') ∧ Settled limits key claim w p.now p.memory m') :
    (p.step (traffic limits key) (.store i)).tasks[i]? = some ⟨request, .done (delivered w), .waiting⟩ ∧
      (p.step (traffic limits key) (.store i)).now = p.now ∧
      Settled limits key claim w p.now p.memory (p.step (traffic limits key) (.store i)).memory := by
  rw [settle_eq hkey] at ht
  cases hr : settlement limits ticket w with
  | none =>
    rw [hr] at ht hserve
    have hstep : p.step (traffic limits key) (.store i) = p := by
      simp only [Pool.step, ht]
    rw [hstep]
    exact ⟨ht, rfl, hserve⟩
  | some r =>
    rw [hr] at ht hserve
    obtain ⟨reply, m', hm, hsettled⟩ := hserve
    have hstep : p.step (traffic limits key) (.store i) =
        ({ p with memory := m' } : Pool).answer i request (.store r) reply fun _ => .done (delivered w) := by
      simp only [Pool.step, ht, hm]
    rw [hstep]
    refine ⟨?_, rfl, hsettled⟩
    rw [Pool.answer, Pool.getElem?_note (p := { p with memory := m' }) ht, if_pos rfl]

theorem settle_comesTo_delivered {ticket : Idempotency.Ticket} (hkey : Idempotency.checkKey ticket.key = .ok ())
    (w : Response) : (settle limits ticket w : Program Response Response).ComesTo (delivered w) := by
  rw [settle_eq hkey]
  split
  · rfl
  · exact fun _ => rfl

/-- A request that has acquired its key brings the client the handler's own response, save that a body that breaks becomes
an internal error, whatever the store answers. When the claim is settled, the record of the key becomes what the response
says, and no other key is touched. A record of anybody else is not taken for the claim. -/
theorem response_settles_claim (limits : Limits) {request : Request} {key : String} (hkey : request.key? = some key)
    {log : List (Answered Response)} {next : Response → Program Response Response}
    (hleads : (runOnce limits request (Program.once .work)).Leads log (.ask .work next)) :
    ∃ token ms, log = wonLog limits key token ms ∧ (∀ text, Foreign token text → text ≠ claimText token ms) ∧
      ∀ w : Response, (next w).ComesTo (delivered w) ∧
        ∀ (p : Pool) (i : Nat), p.tasks[i]? = some ⟨request, next w, .waiting⟩ → limits.cacheTtl.millis ≠ 0 →
          (p.now.add? limits.cacheTtl).isSome →
          let p' := p.step (traffic limits key) (.store i)
          p'.tasks[i]? = some ⟨request, .done (delivered w), .waiting⟩ ∧ p'.now = p.now ∧
            Settled limits key (claimText token ms) w p.now p.memory p'.memory := by
  have hok := checkKey_of_leads hkey hleads
  obtain ⟨token, ms, hlog, rfl⟩ := (asking_of_leads hkey hleads).won
  refine ⟨token, ms, hlog, fun text h => h.ne ms, fun w => ⟨settle_comesTo_delivered hok w, ?_⟩⟩
  intro p i ht hlong hends
  exact step_settle hok ht (serve_settlement hlong hends key (claimText token ms) w p.memory)

def refusal : Response := ⟨500, [], .whole "no".toUTF8⟩

def notice : Response := ⟨404, [("content-type", "text/plain".toUTF8)], .whole "no".toUTF8⟩

def worked (w : Response) : Pool where
  memory := (Memory.empty.serve ⟨0⟩ (claimRequest brief "k" (claimText "t" 7))).2
  now := ⟨1000000⟩
  tasks := [⟨keyed, settle brief ⟨"k", claimText "t" 7⟩ w, .waiting⟩]
  history := []

theorem leads_keyed : (runOnce brief keyed (Program.once .work)).Leads (wonLog brief "k" "t" 7)
    (.ask .work (settle brief ⟨"k", claimText "t" 7⟩)) := by
  have hok : Idempotency.checkKey "k" = .ok () := rfl
  rw [runOnce_eq key?_keyed, Idempotency.run_check, hok]
  have hstart : (Program.ask .token fun t => .ask .clock fun ms =>
      .ask (.store (claimRequest brief "k" (claimText t ms)))
        fun reply => (afterClaim "k" (claimText t ms) reply).bind (afterCheck brief) : Program Response Response).Leads
      [] _ := .start
  have hdrawn := hstart.next "t"
  have hread := hdrawn.next (7 : Int)
  exact hread.next (.ok true)

/-- A server error gives the key back, and another response takes the place of the claim. -/
theorem refusal_gives_key_back :
    let refused := (worked refusal).step (traffic brief "k") (.store 0)
    let kept := (worked notice).step (traffic brief "k") (.store 0)
    keyed.key? = some "k" ∧
      (runOnce brief keyed (Program.once .work)).Leads (wonLog brief "k" "t" 7)
        (.ask .work (settle brief ⟨"k", claimText "t" 7⟩)) ∧
      brief.cacheTtl.millis ≠ 0 ∧ ((⟨1000000⟩ : Instant).add? brief.cacheTtl).isSome ∧
      (∀ w, (worked w).tasks[0]? = some ⟨keyed, settle brief ⟨"k", claimText "t" 7⟩ w, .waiting⟩ ∧
        ((worked w).memory.visible? ⟨1000000⟩ (storeKey "k")).map Entry.value = some (claimText "t" 7)) ∧
      refused.tasks[0]? = some ⟨keyed, .done refusal, .waiting⟩ ∧
      refused.memory.visible? ⟨1000000⟩ (storeKey "k") = none ∧
      kept.tasks[0]? = some ⟨keyed, .done notice, .waiting⟩ ∧
      kept.memory.visible? ⟨1000000⟩ (storeKey "k") =
        some ⟨responseText ⟨404, "no", some "text/plain"⟩, some ⟨3000000⟩⟩ := by
  intro refused kept
  have hclaimed : ∀ w, ((worked w).memory.visible? ⟨1000000⟩ (storeKey "k")).map Entry.value =
      some (claimText "t" 7) := by
    intro w
    show ((worked refusal).memory.visible? ⟨1000000⟩ (storeKey "k")).map Entry.value = _
    decide +kernel
  obtain ⟨token, ms, hlog, _, hsettles⟩ := response_settles_claim brief key?_keyed leads_keyed
  obtain ⟨rfl, rfl, _⟩ : "t" = token ∧ 7 = ms ∧ claimText "t" 7 = claimText token ms := by
    simpa [wonLog] using hlog
  obtain ⟨hrefused, _, hgone⟩ := (hsettles refusal).2 (worked refusal) 0 rfl (by decide) (by decide)
  obtain ⟨hkept, _, hrecord⟩ := (hsettles notice).2 (worked notice) 0 rfl (by decide) (by decide)
  have hkeeps : Keeps brief notice "no" := ⟨by decide, _, rfl, Text.Utf8.fromUTF8?_toUTF8 "no", by decide⟩
  have htype : ((notice.headers.get? "content-type").filter isVisible).map characters = some "text/plain" := by
    decide +kernel
  have hnotice := hrecord.kept "no" hkeeps ⟨1000000⟩ (Nat.le_refl _)
  rw [htype, Store.Cell.live_until, if_pos (by decide)] at hnotice
  refine ⟨key?_keyed, leads_keyed, by decide, by decide, fun w => ⟨rfl, hclaimed w⟩, hrefused, ?_, hkept, hnotice⟩
  exact hgone.givenUp (.inl rfl) (hclaimed refusal) ⟨1000000⟩ (Nat.le_refl _)

end Coordination.Http
