import Coordination.Proofs.Lock.Course
import Coordination.Proofs.Pool.History

/-! # One owner at a time

Any clients take and give back one lock in any order, while others write what they like under other keys. The cell of the
lock's key is the owner's token until that owner gives the lock back or its time is over, so nobody else takes it before,
and giving back succeeds for that owner only.
-/
namespace Coordination.Lock
open Store (Cell Memory)

inductive Call where
  | acquire (owner : String) (ttl : Duration)
  | release (owner : String)
deriving DecidableEq, Repr

def Call.program (key : String) : Call → Program Unit (Except Failure Bool)
  | .acquire owner ttl => (Lock.acquire key owner ttl).run
  | .release owner => (Lock.release key owner).run

/-- Any clients of the lock at a key, next to requests that leave the key alone. -/
def traffic (key : String) : Traffic Call Unit (Except Failure Bool) where
  program := Call.program key
  admits _ _ := true
  works _ := true
  aside := Store.Request.leaves key

abbrev Event := Coordination.Event Call Unit (Except Failure Bool)

def Acquires (e : Event) (owner : String) (ttl : Duration) : Prop :=
  e.op = .acquire owner ttl ∧ e.result = some (.ok true)

def Releases (e : Event) (owner : String) : Prop := e.op = .release owner ∧ e.result = some (.ok true)

/-- The owner took the lock last, and its time is not over at `now` nor has it given the lock back. -/
def HeldBy (owner : String) (history : List Event) (now : Instant) : Prop :=
  ∃ before e after ttl, history = before ++ e :: after ∧ Acquires e owner ttl ∧
    (∀ d ∈ after, ∀ other ttl', ¬ Acquires d other ttl') ∧ (∀ d ∈ after, ¬ Releases d owner) ∧
    now.nanos < e.time.nanos + ttl.nanos

theorem traffic_owns (key : String) : (traffic key).Owns key := Traffic.owns_of_leaves fun _ h => h

theorem acquire_leads {key owner : String} {ttl : Duration} {log : List (Answered Unit)} {q : Ask}
    {next : q.Answer Unit → Program Unit (Except Failure Bool)}
    (h : (Call.program key (.acquire owner ttl)).Leads log (.ask q next)) :
    Program.ask q next = .ask (.store (.setIfAbsent key owner ttl)) .done := by
  simp only [Call.program, run_acquire] at h
  cases hargs : checkArguments owner ttl with
  | error failure =>
    rw [hargs] at h
    exact absurd h Program.leads_done_ask
  | ok _ =>
    rw [hargs] at h
    rcases Program.leads_ask h with ⟨_, heq⟩ | ⟨a, log', _, hdone⟩
    · exact heq
    · exact absurd hdone Program.leads_done_ask

theorem release_leads {key owner : String} {log : List (Answered Unit)} {q : Ask}
    {next : q.Answer Unit → Program Unit (Except Failure Bool)}
    (h : (Call.program key (.release owner)).Leads log (.ask q next)) :
    Program.ask q next = .ask (.store (.compareAndDelete key owner)) .done := by
  rcases Program.leads_ask h with ⟨_, heq⟩ | ⟨a, log', _, hdone⟩
  · exact heq
  · exact absurd hdone Program.leads_done_ask

section Steps
variable {key : String} {cells : String → Cell} {before : List Event} {e : Event}

theorem acquire_effect (he : e.Fits (traffic key) cells before) {owner : String} {ttl : Duration}
    (hop : e.op = .acquire owner ttl) :
    (∃ t, e.result = some (.ok true) ∧ (held key (cells key) before).live e.time = none ∧
      t.nanos = e.time.nanos + ttl.nanos ∧ e.onto key (held key (cells key) before) = some ⟨owner, some t⟩) ∨
    e.result ≠ some (.ok true) ∧ e.onto key (held key (cells key) before) = held key (cells key) before := by
  obtain ⟨q, next, hleads, htells⟩ := he.place
  rw [hop] at hleads
  cases acquire_leads hleads
  rcases htells.setIfAbsent (traffic_owns key) with ⟨t, _, hres, hlive, ht, honto⟩ | ⟨o, _, hres, ho, hsame⟩
  · exact .inl ⟨t, hres, hlive, ht, honto⟩
  · refine .inr ⟨?_, hsame⟩
    intro htrue
    rw [hres] at htrue
    cases o with
    | error c => cases htrue
    | ok reply => exact ho (congrArg _ (Option.some.inj htrue))

theorem release_effect (he : e.Fits (traffic key) cells before) {owner : String} (hop : e.op = .release owner) :
    (∃ entry, e.result = some (.ok true) ∧ (held key (cells key) before).live e.time = some entry ∧
      entry.value = owner ∧ e.onto key (held key (cells key) before) = none) ∨
    e.result = some (.ok false) ∧ (∀ entry, (held key (cells key) before).live e.time = some entry →
      entry.value ≠ owner) ∧ e.onto key (held key (cells key) before) = held key (cells key) before := by
  obtain ⟨q, next, hleads, htells⟩ := he.place
  rw [hop] at hleads
  cases release_leads hleads
  rcases htells.compareAndDelete (traffic_owns key) with
    ⟨entry, _, hres, hlive, hvalue, honto⟩ | ⟨_, hres, hne, hsame⟩
  · exact .inl ⟨entry, hres, hlive, hvalue, honto⟩
  · exact .inr ⟨hres, hne, hsame⟩

theorem not_acquires_of_release {owner other : String} {ttl : Duration} (hop : e.op = .release owner) :
    ¬ Acquires e other ttl := by
  intro h
  cases hop.symm.trans h.1

theorem not_releases_of_acquire {owner other : String} {ttl : Duration} (hop : e.op = .acquire owner ttl) :
    ¬ Releases e other := by
  intro h
  cases hop.symm.trans h.1

/-- While the owner's time lasts and it does not give the lock back, the lock stays as it is and nobody takes it. -/
theorem kept_step (he : e.Fits (traffic key) cells before) {owner : String} {t : Instant}
    (hc : held key (cells key) before = some ⟨owner, some t⟩) (hrelease : ¬ Releases e owner)
    (htime : e.time.nanos < t.nanos) :
    e.onto key (held key (cells key) before) = held key (cells key) before ∧
      ∀ other ttl, ¬ Acquires e other ttl := by
  have hlive : (held key (cells key) before).live e.time = some ⟨owner, some t⟩ := by
    rw [hc, Cell.live_until, if_pos htime]
  cases hop : e.op with
  | acquire other ttl =>
    rcases acquire_effect he hop with ⟨_, _, hnone, _⟩ | ⟨hfail, hsame⟩
    · rw [hlive] at hnone
      cases hnone
    · exact ⟨hsame, fun _ _ h => hfail h.2⟩
  | release other =>
    rcases release_effect he hop with ⟨entry, hres, hentry, hvalue, _⟩ | ⟨_, _, hsame⟩
    · rw [hlive] at hentry
      cases hentry
      exact absurd ⟨hop.trans (congrArg _ hvalue.symm), hres⟩ hrelease
    · exact ⟨hsame, fun _ _ => not_acquires_of_release hop⟩

end Steps

variable {key : String} {cells : String → Cell}

theorem kept {before after : List Event} (h : Sound (traffic key) cells (before ++ after)) {owner : String} {t : Instant}
    (hc : held key (cells key) before = some ⟨owner, some t⟩) (hrelease : ∀ d ∈ after, ¬ Releases d owner)
    (htime : ∀ d ∈ after, d.time.nanos < t.nanos) :
    held key (cells key) (before ++ after) = some ⟨owner, some t⟩ ∧
      ∀ d ∈ after, ∀ other ttl, ¬ Acquires d other ttl := by
  induction after generalizing before with
  | nil => exact ⟨by rwa [List.append_nil], by simp⟩
  | cons d after ih =>
    obtain ⟨hd, hrest⟩ := List.forall_mem_cons.1 hrelease
    obtain ⟨htd, htrest⟩ := List.forall_mem_cons.1 htime
    obtain ⟨hsame, hno⟩ := kept_step (h before d after rfl) hc hd htd
    rw [List.append_cons] at h
    obtain ⟨hheld, hnone⟩ := ih h (by rw [held_concat, hsame, hc]) hrest htrest
    exact ⟨by rw [List.append_cons]; exact hheld, List.forall_mem_cons.2 ⟨hno, hnone⟩⟩

theorem kept_since {before after : List Event} {e : Event} (h : Sound (traffic key) cells (before ++ e :: after))
    {owner : String} {ttl : Duration} (he : Acquires e owner ttl) (hrelease : ∀ d ∈ after, ¬ Releases d owner)
    (htime : ∀ d ∈ after, d.time.nanos < e.time.nanos + ttl.nanos) :
    ∃ t, t.nanos = e.time.nanos + ttl.nanos ∧
      held key (cells key) (before ++ e :: after) = some ⟨owner, some t⟩ ∧
      ∀ d ∈ after, ∀ other ttl, ¬ Acquires d other ttl := by
  rcases acquire_effect (h before e after rfl) he.1 with ⟨t, _, _, ht, honto⟩ | ⟨hfail, _⟩
  · rw [List.append_cons] at h ⊢
    exact ⟨t, ht, kept h (by rw [held_concat, honto]) hrelease (by simpa only [ht] using htime)⟩
  · exact absurd he.2 hfail

theorem heldBy_of_live {history : List Event} (h : Sound (traffic key) cells history) (hnone : cells key = none)
    {now : Instant} {entry : Store.Entry} (hlive : (held key (cells key) history).live now = some entry) :
    HeldBy entry.value history now := by
  revert entry
  refine h.induction (P := fun history => ∀ {entry}, (held key (cells key) history).live now = some entry →
    HeldBy entry.value history now) ?_ ?_
  · intro entry hlive
    rw [hnone] at hlive
    cases hlive
  · intro before e _ he ih entry hlive
    rw [held_concat] at hlive
    -- What is not a success leaves the cell alone, so the holder is that of the history before.
    have extend : e.onto key (held key (cells key) before) = held key (cells key) before →
        (∀ other ttl, ¬ Acquires e other ttl) → ¬ Releases e entry.value → HeldBy entry.value (before ++ [e]) now := by
      intro hsame hacquire hrelease
      rw [hsame] at hlive
      obtain ⟨early, d, late, ttl, rfl, hd, hacquires, hreleases, htime⟩ := ih hlive
      refine ⟨early, d, late ++ [e], ttl, by simp, hd, ?_, ?_, htime⟩
      · intro f hf
        rcases List.mem_append.1 hf with hf | hf
        · exact hacquires f hf
        · cases List.mem_singleton.1 hf
          exact hacquire
      · intro f hf
        rcases List.mem_append.1 hf with hf | hf
        · exact hreleases f hf
        · cases List.mem_singleton.1 hf
          exact hrelease
    cases hop : e.op with
    | acquire owner ttl =>
      rcases acquire_effect he hop with ⟨t, hres, _, ht, honto⟩ | ⟨hfail, hsame⟩
      · rw [honto, Cell.live_until] at hlive
        split at hlive
        · next hlt =>
          cases hlive
          exact ⟨before, e, [], ttl, rfl, ⟨hop, hres⟩, by simp, by simp, ht ▸ hlt⟩
        · cases hlive
      · exact extend hsame (fun _ _ hacq => hfail hacq.2) (not_releases_of_acquire hop)
    | release owner =>
      rcases release_effect he hop with ⟨_, _, _, _, honto⟩ | ⟨hres, _, hsame⟩
      · rw [honto] at hlive
        cases hlive
      · refine extend hsame (fun _ _ => not_acquires_of_release hop) ?_
        intro hrel
        cases hres.symm.trans hrel.2

theorem live_of_heldBy {history after : List Event} {e : Event} {owner : String}
    (h : Sound (traffic key) cells (history ++ e :: after)) (hheld : HeldBy owner history e.time) :
    ∃ entry, (held key (cells key) history).live e.time = some entry ∧ entry.value = owner := by
  obtain ⟨before, d, mid, ttl, rfl, hd, _, hreleases, htime⟩ := hheld
  have hpast : ∀ f ∈ mid, f.time.nanos < d.time.nanos + ttl.nanos := by
    intro f hf
    have hle := h.time_le.1 f (List.mem_append_right before (List.mem_cons_of_mem d hf))
    omega
  obtain ⟨t, ht, hcell, _⟩ := kept_since h.of_append hd hreleases hpast
  rw [hcell, Cell.live_until, if_pos (ht ▸ htime)]
  exact ⟨_, rfl, rfl⟩

/-- Between two times of taking the lock within the first owner's time, that owner has given it back. -/
theorem released_between {before mid after : List Event} {e f : Event}
    (h : Sound (traffic key) cells (before ++ e :: mid ++ f :: after)) {owner other : String} {ttl ttl' : Duration}
    (he : Acquires e owner ttl) (hf : Acquires f other ttl') (htime : f.time.nanos < e.time.nanos + ttl.nanos) :
    ∃ r ∈ mid, Releases r owner := by
  apply Classical.byContradiction
  intro hno
  have hreleases : ∀ d ∈ mid ++ [f], ¬ Releases d owner := by
    intro d hd hrel
    rcases List.mem_append.1 hd with hd | hd
    · exact hno ⟨d, hd, hrel⟩
    · cases List.mem_singleton.1 hd
      exact not_acquires_of_release hrel.1 hf
  have htimes : ∀ d ∈ mid ++ [f], d.time.nanos < e.time.nanos + ttl.nanos := by
    intro d hd
    rcases List.mem_append.1 hd with hd | hd
    · have hle := h.time_le.1 d (List.mem_append_right before (List.mem_cons_of_mem e hd))
      omega
    · cases List.mem_singleton.1 hd
      exact htime
  rw [List.append_assoc, List.cons_append, List.append_cons mid, ← List.cons_append, ← List.append_assoc] at h
  obtain ⟨t, _, _, hnone⟩ := kept_since h.of_append he hreleases htimes
  exact hnone f (List.mem_append_right mid (List.mem_singleton_self f)) other ttl' hf

/-- Whatever clients and others do and in whatever order: while an owner's time lasts nobody takes the lock before that
owner has given it back; giving back succeeds exactly for the owner who took the lock last, whose time is not over and who
has not given it back; and an attempt to give back that fails changes neither the holder nor its time. -/
theorem exclusive_until_released_or_expired (key : String) (m : Memory) (now : Instant)
    (hm : m.visible? now key = none) (moves : List (Move Call Unit)) :
    let p := (Pool.opened m now).run (traffic key) moves
    (∀ before e mid f after owner ttl other ttl', p.history = before ++ e :: mid ++ f :: after →
      Acquires e owner ttl → Acquires f other ttl' → f.time.nanos < e.time.nanos + ttl.nanos →
      ∃ r ∈ mid, Releases r owner) ∧
    (∀ before r after owner, p.history = before ++ r :: after → r.op = .release owner →
      r.result = some (.ok true) ∧ HeldBy owner before r.time ∨
        r.result = some (.ok false) ∧ ¬ HeldBy owner before r.time) ∧
    ∀ move r owner, (p.step (traffic key) move).history = p.history ++ [r] → r.op = .release owner →
      r.result = some (.ok false) → ∀ later : Instant, (p.step (traffic key) move).now.nanos ≤ later.nanos →
        (p.step (traffic key) move).memory.visible? later key = p.memory.visible? later key := by
  intro p
  have hcons : p.Consistent (traffic key) (cellsBut m key) := Pool.consistent_unseen hm moves
  have hsound := hcons.sound
  refine ⟨?_, ?_, ?_⟩
  · intro before e mid f after owner ttl other ttl' hhist he hf htime
    rw [hhist] at hsound
    exact released_between hsound he hf htime
  · intro before r after owner hhist hop
    rw [hhist] at hsound
    rcases release_effect (hsound before r after rfl) hop with ⟨entry, hres, hlive, hvalue, _⟩ | ⟨hres, hne, _⟩
    · exact .inl ⟨hres, hvalue ▸ heldBy_of_live hsound.of_append (cellsBut_self m key) hlive⟩
    · refine .inr ⟨hres, ?_⟩
      intro hheld
      obtain ⟨entry, hlive, hvalue⟩ := live_of_heldBy hsound hheld
      exact hne entry hlive hvalue
  · intro move r owner hhist hop hres later hlater
    have hchange := Pool.step_change (traffic key) p move
    have hcons' := hcons.change hchange
    have hsound' := hcons'.sound
    rw [hhist] at hsound'
    have hsame : r.onto key (held key (cellsBut m key key) p.history) = held key (cellsBut m key key) p.history := by
      rcases release_effect (hsound' p.history r [] rfl) hop with ⟨_, htrue, _⟩ | ⟨_, _, hsame⟩
      · cases hres.symm.trans htrue
      · exact hsame
    calc (p.step (traffic key) move).memory.visible? later key
      _ = (held key (cellsBut m key key) (p.history ++ [r])).live later := by
        rw [hcons'.shows key (traffic_owns key) later hlater, hhist]
      _ = (held key (cellsBut m key key) p.history).live later := by rw [held_concat, hsame]
      _ = p.memory.visible? later key :=
        (hcons.shows key (traffic_owns key) later (Nat.le_trans hchange.now_le hlater)).symm

def handover : List (Move Call Unit) := [
  .call (.acquire "a" (.ofMillis 5)), .store 0, .call (.release "a"), .store 1, .call (.acquire "b" (.ofMillis 5)),
  .store 2]

theorem released_before_handover :
    Memory.empty.visible? ⟨0⟩ "lock:k" = none ∧
      ∃ e r f : Event, ((Pool.opened Memory.empty ⟨0⟩).run (traffic "lock:k") handover).history = [e, r, f] ∧
        Acquires e "a" (.ofMillis 5) ∧ Acquires f "b" (.ofMillis 5) ∧
        f.time.nanos < e.time.nanos + (Duration.ofMillis 5).nanos ∧ ∃ d ∈ [r], Releases d "a" := by
  have hempty : Memory.empty.visible? ⟨0⟩ "lock:k" = none := rfl
  obtain ⟨e, r, f, hhist, he, hf, htime⟩ : ∃ e r f : Event,
      ((Pool.opened Memory.empty ⟨0⟩).run (traffic "lock:k") handover).history = [e, r, f] ∧
        Acquires e "a" (.ofMillis 5) ∧ Acquires f "b" (.ofMillis 5) ∧
        f.time.nanos < e.time.nanos + (Duration.ofMillis 5).nanos :=
    ⟨_, _, _, rfl, ⟨rfl, rfl⟩, ⟨rfl, rfl⟩, by decide⟩
  exact ⟨hempty, e, r, f, hhist, he, hf, htime,
    (exclusive_until_released_or_expired "lock:k" Memory.empty ⟨0⟩ hempty handover).1 [] e [r] f [] "a" (.ofMillis 5) "b"
      (.ofMillis 5) hhist he hf htime⟩

end Coordination.Lock
