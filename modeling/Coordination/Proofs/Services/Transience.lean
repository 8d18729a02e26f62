import Coordination.Proofs.Pool.Deadlines
import Coordination.Proofs.Services.Operation
import Coordination.Proofs.Store.Ideal

/-! # Every record is transient

Any operations of the four services run side by side over a memory that was empty. All that they write has a lifetime, and a
count that goes on keeps the one it has. So each entry that is stored has the deadline that was given to it last, and when
the longest lifetime is over after the last operation, nothing is left.
-/
namespace Coordination.Services
open Store (Entry)

variable {ω : Type}

/-- Any operations of the services, whatever the work under a lock comes to. -/
def traffic (ω : Type) : Traffic Operation ω (Except Failure (Answer ω)) := .free fun op => op.action.run

theorem Operation.sends_lasting (op : Operation) : (op.action : Action ω (Answer ω)).run.Sends Store.Request.Lasting := by
  refine op.sends.mono fun r hr => ?_
  cases op with
  | acquire | giveBack | runExclusive => cases hr <;> trivial
  | count | countAt =>
    obtain ⟨_, _, _, hr⟩ := hr
    cases hr <;> trivial
  | claim | inspect | complete | giveUp => cases hr <;> trivial
  | signIn => cases hr <;> trivial

/-- However the services are used over a memory that was empty: whatever is stored, seen or not, has the deadline of the
event that gave it one last; and when the longest lifetime of those events is over after all that happened, nothing is
left. -/
theorem every_record_is_transient (start : Instant) (moves : List (Move Operation ω)) :
    let p := (Pool.opened .empty start).run (traffic ω) moves
    (∀ key entry, p.memory.entries.find? key = some entry →
      ∃ e ttl, SetsLast key p.history e ttl ∧ entry.expiresAt = some (e.time.advance ttl)) ∧
    ∀ longest : Duration, (∀ key before e after ttl, p.history = before ++ e :: after → Sets key before e ttl →
      ttl.nanos ≤ longest.nanos) →
      ∀ later : Instant, (∀ e ∈ p.history, e.time.nanos + longest.nanos ≤ later.nanos) → p.memory.size later = 0 := by
  intro p
  have howns : ∀ key, (traffic ω).Owns key := fun _ _ hr => by cases hr
  have hcons : p.Consistent (traffic ω) fun _ => none := Pool.consistent_found (traffic ω) .empty start moves
  have hdeadline : ∀ key entry, p.memory.entries.find? key = some entry →
      ∃ e ttl, SetsLast key p.history e ttl ∧ entry.expiresAt = some (e.time.advance ttl) := by
    intro key entry hfind
    have hheld := Pool.stores_run (s := traffic ω) (fun _ => rfl) start moves key entry hfind
    exact deadline_of_held hcons.sound (howns key) Operation.sends_lasting entry hheld
  refine ⟨hdeadline, ?_⟩
  intro longest hlongest later hlater
  have hgone : ∀ key, key ∉ (p.memory.entries.keepLive later).toList.map Prod.fst := by
    intro key hmem
    obtain ⟨entry, hvisible⟩ := Option.isSome_iff_exists.1 ((p.memory.entries.mem_keys_keepLive later key).1 hmem)
    obtain ⟨hfind, hlive⟩ := Option.filter_eq_some_iff.1 hvisible
    obtain ⟨e, ttl, ⟨before, after, hhistory, hsets, _⟩, hends⟩ := hdeadline key entry hfind
    have hbound := hlongest key before e after ttl hhistory hsets
    have hpast := hlater e (by simp [hhistory])
    simp only [Entry.isLive, hends, Instant.advance, decide_eq_true_eq] at hlive
    omega
  have hkeys := List.eq_nil_iff_forall_not_mem.2 hgone
  exact List.length_eq_zero_iff.2 (List.map_eq_nil_iff.1 hkeys)

end Coordination.Services
