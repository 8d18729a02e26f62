import Coordination.Proofs.Store.Ideal

/-! # What a memory holds

An entry that is dead stays in the memory until its key is used or the memory is swept. Only a write of a new entry adds to
what is held, and each counts towards the next sweep, which leaves what is alive. So there are held at most the entries that
were alive at the last sweep and as many as were written since, however long the memory has been used.
-/
namespace Coordination.Store

theorem Entries.length_erase_lt {es : Entries} {key : String} {e : Entry} (h : es.find? key = some e) :
    (es.erase key).toList.length < es.toList.length := by
  have hmem : key ∈ es.toList.map Prod.fst := by
    by_contra hmem
    exact absurd (h.symm.trans (lookup_eq_none hmem)) (Option.some_ne_none e)
  obtain ⟨kv, hkv, rfl⟩ := List.mem_map.1 hmem
  exact List.length_filter_lt_length_iff_exists.2 ⟨kv, hkv, by simp⟩

namespace Memory

def held (m : Memory) : Nat := m.entries.toList.length

variable {m m' : Memory} {now : Instant} {key : String}

theorem held_erase_le (m : Memory) (key : String) : (m.erase key).held ≤ m.held := List.length_filter_le ..

theorem held_put_le (m : Memory) (key : String) (e : Entry) : (m.put key e).held ≤ m.held + 1 :=
  Nat.succ_le_succ (m.held_erase_le key)

theorem held_put_of_visible {old : Entry} (h : m.visible? now key = some old) (e : Entry) :
    (m.put key e).held ≤ m.held :=
  Entries.length_erase_lt (Option.filter_eq_some_iff.1 h).1

theorem held_sweep (m : Memory) (now : Instant) : (m.sweep now).held = (m.sweep now).size now := by
  simp only [held, size, sweep, Entries.countLive, Entries.keepLive, Entries.filter, List.filter_filter, Bool.and_self]

/-- Nothing was written anew; entries may have been dropped. -/
structure Trimmed (m m' : Memory) : Prop where
  writes_eq : m'.writesSinceSweep = m.writesSinceSweep
  held_le : m'.held ≤ m.held

/-- What a request may do to the entries that are held: it writes none anew, it writes one, or that write is the one
after which the memory is swept. -/
inductive Upkeep (now : Instant) (m m' : Memory) : Prop
  | trimmed (h : Trimmed m m')
  | wrote (hwrites : m'.writesSinceSweep = m.writesSinceSweep + 1) (hroom : m'.writesSinceSweep < sweepInterval)
    (hheld : m'.held ≤ m.held + 1)
  | swept (written : Memory) (hfull : sweepInterval ≤ m.writesSinceSweep + 1) (heq : m' = written.sweep now)

theorem trimmed_refl (m : Memory) : Trimmed m m := ⟨rfl, Nat.le_refl _⟩

theorem Trimmed.erase (h : Trimmed m m') (key : String) : Trimmed m (m'.erase key) :=
  ⟨h.writes_eq, Nat.le_trans (m'.held_erase_le key) h.held_le⟩

theorem Trimmed.put {old : Entry} (h : Trimmed m m') (hseen : m'.visible? now key = some old) (e : Entry) :
    Trimmed m (m'.put key e) :=
  ⟨h.writes_eq, Nat.le_trans (held_put_of_visible hseen e) h.held_le⟩

theorem Trimmed.insert (h : Trimmed m m') (now : Instant) (key : String) (e : Entry) :
    Upkeep now m (m'.insert now key e) := by
  simp only [Memory.insert, h.writes_eq]
  split
  · next hfull => exact .swept _ hfull rfl
  · next hroom =>
    exact .wrote rfl (Nat.lt_of_not_le hroom)
      (Nat.le_trans (m'.held_put_le key e) (Nat.succ_le_succ h.held_le))

/-- Looking at a key trims the memory, which still shows what was found. -/
theorem live_trimmed (m : Memory) (now : Instant) (key : String) :
    ∃ e? m', m.live now key = (e?, m') ∧ Trimmed m m' ∧ m'.visible? now key = e? := by
  refine ⟨(m.live now key).1, (m.live now key).2, rfl, ?_, ?_⟩
  · unfold live
    split
    · exact m.trimmed_refl
    · exact m.trimmed_refl.erase key
  · rw [visible?_live m (Nat.le_refl _), live_fst]

theorem Trimmed.raise {e : Entry} (h : Trimmed m m') (hseen : m'.visible? now key = some e) (amount : Int)
    (ttl : Option Duration) : Trimmed m (m'.raise now key e amount ttl).2 := by
  simp only [Memory.raise]
  cases sum key e.value amount with
  | error failure => exact h
  | ok n =>
    cases e.expiresAt with
    | some t => exact h.put hseen _
    | none =>
      cases deadline now ttl with
      | error crash => exact h.put hseen _
      | ok at? => exact h.put hseen _

theorem perform_upkeep (m : Memory) (now : Instant) (r : Request) : Upkeep now m (m.perform now r).2 := by
  cases r with
  | ping => exact .trimmed m.trimmed_refl
  | get key =>
    obtain ⟨e?, m', hlive, htrimmed, _⟩ := m.live_trimmed now key
    simp only [perform, get, hlive]
    exact .trimmed htrimmed
  | ttlRemaining key =>
    obtain ⟨e?, m', hlive, htrimmed, _⟩ := m.live_trimmed now key
    simp only [perform, ttlRemaining, hlive]
    exact .trimmed htrimmed
  | delete key =>
    obtain ⟨e?, m', hlive, htrimmed, _⟩ := m.live_trimmed now key
    simp only [perform, delete, hlive]
    exact .trimmed (htrimmed.erase key)
  | set key value ttl =>
    simp only [perform, set]
    cases deadline now ttl with
    | error crash => exact .trimmed m.trimmed_refl
    | ok at? => exact m.trimmed_refl.insert now key _
  | setIfAbsent key value ttl =>
    obtain ⟨e?, m', hlive, htrimmed, _⟩ := m.live_trimmed now key
    simp only [perform, setIfAbsent, hlive]
    cases e? with
    | some e => exact .trimmed htrimmed
    | none =>
      cases deadline now (some ttl) with
      | error crash => exact .trimmed htrimmed
      | ok at? => exact htrimmed.insert now key _
  | increment key amount ttl =>
    obtain ⟨e?, m', hlive, htrimmed, hseen⟩ := m.live_trimmed now key
    simp only [perform, increment, hlive]
    cases e? with
    | some e => exact .trimmed (htrimmed.raise hseen amount ttl)
    | none =>
      cases deadline now ttl with
      | error crash => exact .trimmed htrimmed
      | ok at? => exact htrimmed.insert now key _
  | compareAndDelete key expected =>
    obtain ⟨e?, m', hlive, htrimmed, _⟩ := m.live_trimmed now key
    simp only [perform, compareAndDelete, hlive]
    cases e? with
    | none => exact .trimmed htrimmed
    | some e =>
      dsimp only
      split
      · exact .trimmed (htrimmed.erase key)
      · exact .trimmed htrimmed

theorem use_upkeep (m : Memory) (now : Instant) (u : Use) : Upkeep now m (m.use now u).2 := by
  cases u with
  | count => exact .trimmed m.trimmed_refl
  | request r =>
    simp only [use, serve]
    split
    · exact .trimmed m.trimmed_refl
    · exact m.perform_upkeep now r

/-- A use has swept the memory: only a sweep sets the count of writes back. -/
def Swept (m m' : Memory) : Prop := m'.writesSinceSweep < m.writesSinceSweep

instance (m m' : Memory) : Decidable (Swept m m') := inferInstanceAs (Decidable (_ < _))

/-- The number of entries that were alive when the memory was last swept, `n` for the time before. -/
def liveAtSweep (n : Nat) (m : Memory) : List (Instant × Use) → Nat
  | [] => n
  | (now, u) :: rest =>
    let m' := (m.use now u).2
    liveAtSweep (if m.Swept m' then m'.size now else n) m' rest

/-- Right after each use there are at most so many keys alive at once. -/
def LiveAtMost (most : Nat) (m : Memory) : List (Instant × Use) → Prop
  | [] => True
  | (now, u) :: rest => (m.use now u).2.size now ≤ most ∧ LiveAtMost most (m.use now u).2 rest

instance decidableLiveAtMost (most : Nat) (m : Memory) :
    (uses : List (Instant × Use)) → Decidable (LiveAtMost most m uses)
  | [] => isTrue trivial
  | (now, u) :: rest =>
    have := decidableLiveAtMost most (m.use now u).2 rest
    inferInstanceAs (Decidable (_ ∧ LiveAtMost most (m.use now u).2 rest))

/-- Held are at most `n` entries besides as many as were written since the last sweep. -/
structure Bounded (n : Nat) (m : Memory) : Prop where
  writes_lt : m.writesSinceSweep < sweepInterval
  held_le : m.held ≤ n + m.writesSinceSweep

theorem bounded_empty (n : Nat) : Bounded n empty := ⟨by decide, Nat.zero_le _⟩

/-- The memory is swept by the write that is due for it, and holds then what a sweep leaves. -/
theorem Upkeep.swept_iff (h : Upkeep now m m') :
    m.Swept m' ↔ sweepInterval ≤ m.writesSinceSweep + 1 ∧ ∃ written : Memory, m' = written.sweep now := by
  constructor
  · intro hswept
    have hless : m'.writesSinceSweep < m.writesSinceSweep := hswept
    cases h with
    | trimmed htrimmed => exact absurd htrimmed.writes_eq (Nat.ne_of_lt hless)
    | wrote hwrites => omega
    | swept written hfull heq => exact ⟨hfull, written, heq⟩
  · rintro ⟨hfull, written, rfl⟩
    exact Nat.lt_of_lt_of_le (by decide : 0 < sweepInterval - 1) (Nat.sub_le_of_le_add hfull)

/-- What the bound is after a use depends on whether it has swept. -/
theorem Bounded.use {n : Nat} (h : Bounded n m) (now : Instant) (u : Use) :
    Bounded (if m.Swept (m.use now u).2 then (m.use now u).2.size now else n) (m.use now u).2 := by
  have hupkeep := m.use_upkeep now u
  split
  · next hswept =>
    obtain ⟨_, written, heq⟩ := hupkeep.swept_iff.1 hswept
    rw [heq]
    exact ⟨Nat.succ_pos 255, Nat.le_of_eq (written.held_sweep now)⟩
  · next hnot =>
    have hwrites := h.writes_lt
    have hheld := h.held_le
    cases hupkeep with
    | trimmed htrimmed =>
      refine ⟨htrimmed.writes_eq ▸ hwrites, ?_⟩
      rw [htrimmed.writes_eq]
      exact Nat.le_trans htrimmed.held_le hheld
    | wrote hcount hroom hmore => exact ⟨hroom, by omega⟩
    | swept written hfull heq => exact absurd ((m.use_upkeep now u).swept_iff.2 ⟨hfull, written, heq⟩) hnot

theorem Bounded.useAll {n : Nat} (h : Bounded n m) (uses : List (Instant × Use)) :
    Bounded (liveAtSweep n m uses) (Store.useAll Memory.use m uses).2 := by
  induction uses generalizing n m with
  | nil => exact h
  | cons x rest ih => exact ih (h.use x.1 x.2)

theorem liveAtSweep_le {n most : Nat} {uses : List (Instant × Use)} (hn : n ≤ most) (hlive : LiveAtMost most m uses) :
    liveAtSweep n m uses ≤ most := by
  induction uses generalizing n m with
  | nil => exact hn
  | cons x rest ih =>
    obtain ⟨hfirst, hrest⟩ := hlive
    refine ih ?_ hrest
    split
    · exact hfirst
    · exact hn

/-- However the store is used, at most 255 writes are counted since the last sweep, and there are held at most as many entries
as these and those that were alive at the sweep. So if never more than so many keys are alive at once, there are never held
more than 255 entries besides. -/
theorem dead_entries_are_few (uses : List (Instant × Use)) :
    let m := (Store.useAll Memory.use .empty uses).2
    m.writesSinceSweep ≤ 255 ∧ m.held ≤ liveAtSweep 0 .empty uses + m.writesSinceSweep ∧
      ∀ most, LiveAtMost most .empty uses → m.held ≤ most + 255 := by
  intro m
  have hbounded : Bounded (liveAtSweep 0 .empty uses) m := (bounded_empty 0).useAll uses
  have hwrites : m.writesSinceSweep ≤ 255 := Nat.le_of_lt_succ hbounded.writes_lt
  refine ⟨hwrites, hbounded.held_le, fun most hlive => ?_⟩
  calc m.held ≤ liveAtSweep 0 .empty uses + m.writesSinceSweep := hbounded.held_le
    _ ≤ most + 255 := Nat.add_le_add (liveAtSweep_le (Nat.zero_le most) hlive) hwrites

/-- Three short-lived keys, and one that is written again and again when they are dead until the memory is swept. -/
def rewritten : List (Instant × Use) :=
  ["a", "b", "c"].map (fun key => (⟨0⟩, .request (.set key "1" (some (.ofMillis 1))))) ++
    List.replicate 254 (⟨2000000⟩, .request (.set "d" "1" (some (.ofMillis 1))))

theorem rewritten_key_is_swept :
    LiveAtMost 3 .empty rewritten ∧ liveAtSweep 0 .empty rewritten = 1 ∧
      (Store.useAll Memory.use .empty rewritten).2.held ≤ 3 + 255 := by
  have hlive : LiveAtMost 3 .empty rewritten := by decide +kernel
  exact ⟨hlive, by decide +kernel, (dead_entries_are_few rewritten).2.2 3 hlive⟩

end Memory
end Coordination.Store
