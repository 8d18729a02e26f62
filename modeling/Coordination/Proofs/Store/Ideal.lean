import Mathlib.Data.List.AList
import Coordination.Proofs.Store.Cell
import Coordination.Proofs.Text.Word

/-! # The ideal expiring map

A finite map that holds, under each key, what was written there, since when and for how long. What was written can be
seen exactly while that time lasts, and nothing is ever dropped from the map but by a request to delete it. Whatever
the requests and instants, the memory answers as this map does, so that nobody notices what it drops or sweeps.
-/
namespace Coordination.Store

/-- A value with the instant at which its lifetime began, if it has one. -/
structure Written where
  value : String
  since : Instant
  ttl : Option Duration
deriving DecidableEq, Repr

namespace Written

def isVisible (now : Instant) (w : Written) : Bool :=
  match w.ttl with
  | none => true
  | some ttl => now.nanos < w.since.nanos + ttl.nanos

def left (now : Instant) (w : Written) : Option Duration :=
  w.ttl.map fun ttl => ⟨w.since.nanos + ttl.nanos - now.nanos⟩

/-- Another value in its place. A lifetime goes on as it was; only where there is none, one may begin. -/
def revalued (w : Written) (now : Instant) (value : String) (ttl : Option Duration) : Written :=
  match w.ttl with
  | some _ => { w with value := value }
  | none => ⟨value, now, ttl⟩

def entry (w : Written) : Entry := ⟨w.value, w.ttl.map w.since.advance⟩

theorem isLive_entry (w : Written) (now : Instant) : w.entry.isLive now = w.isVisible now := by
  obtain ⟨value, since, ttl⟩ := w
  cases ttl <;> rfl

theorem left_eq {w : Written} {now : Instant} (h : w.isVisible now = true) :
    (w.entry.expiresAt.map fun deadline => deadline.timeLeft now).filter (fun d => !d.isZero) = w.left now := by
  obtain ⟨value, since, ttl⟩ := w
  cases ttl with
  | none => rfl
  | some d =>
    have hleft : since.nanos + d.nanos - now.nanos ≠ 0 := by
      simp only [isVisible, decide_eq_true_eq] at h
      omega
    simp [entry, left, Option.filter, Instant.timeLeft, Instant.advance, Duration.isZero, hleft]

end Written

/-- What was written under each key. -/
abbrev Ideal := AList fun _ : String => Written

namespace Ideal

def visible? (m : Ideal) (now : Instant) (key : String) : Option Written :=
  (m.lookup key).filter fun w => w.isVisible now

def count (m : Ideal) (now : Instant) : Nat := (m.keys.filter fun key => (m.visible? now key).isSome).length

/-- An increment adds to the integer that the value stands for, if the sum is one of 64 bits as well. -/
def raise (m : Ideal) (now : Instant) (key : String) (w : Written) (amount : Int) (ttl : Option Duration) :
    Except Failure Int × Ideal :=
  match Text.Integer.word? w.value with
  | none => (.error (.internal (.notAnInteger key)), m)
  | some n =>
    if Text.Integer.IsWord (n + amount) then (.ok (n + amount), m.insert key (w.revalued now (toString (n + amount)) ttl))
    else (.error (.internal (.overflow key)), m)

def perform (m : Ideal) (now : Instant) : (r : Request) → Except Failure r.Reply × Ideal
  | .ping => (.ok (), m)
  | .setIfAbsent key value ttl =>
    match m.visible? now key with
    | some _ => (.ok false, m)
    | none => (.ok true, m.insert key ⟨value, now, some ttl⟩)
  | .get key => (.ok ((m.visible? now key).map Written.value), m)
  | .set key value ttl => (.ok (), m.insert key ⟨value, now, ttl⟩)
  | .delete key => (.ok (m.visible? now key).isSome, m.erase key)
  | .increment key amount ttl =>
    match m.visible? now key with
    | none => (.ok amount, m.insert key ⟨toString amount, now, ttl⟩)
    | some w => m.raise now key w amount ttl
  | .ttlRemaining key => (.ok ((m.visible? now key).bind fun w => w.left now), m)
  | .compareAndDelete key expected =>
    match m.visible? now key with
    | none => (.ok false, m)
    | some w => if w.value = expected then (.ok true, m.erase key) else (.ok false, m)

/-- Whether the request has a lifetime below a millisecond. -/
def isShort (r : Request) : Bool := r.ttl?.any fun ttl => ttl.nanos < 1000000

def serve (m : Ideal) (now : Instant) (r : Request) : Except Failure r.Reply × Ideal :=
  if isShort r then (.error (.invalidArgument .ttlTooShort), m) else m.perform now r

end Ideal

inductive Use where
  | request (r : Request)
  | count
deriving DecidableEq, Repr

inductive Outcome where
  | served (r : Request) (reply : Except Crash (Except Failure r.Reply))
  | counted (n : Nat)

def Memory.use (m : Memory) (now : Instant) : Use → Outcome × Memory
  | .request r => (.served r (m.serve now r).1, (m.serve now r).2)
  | .count => (.counted (m.size now), m)

def Ideal.use (m : Ideal) (now : Instant) : Use → Outcome × Ideal
  | .request r => (.served r (.ok (m.serve now r).1), (m.serve now r).2)
  | .count => (.counted (m.count now), m)

/-- Uses a store again and again, each time at an instant, and keeps the outcomes. -/
def useAll {σ : Type} (use : σ → Instant → Use → Outcome × σ) (s : σ) : List (Instant × Use) → List Outcome × σ
  | [] => ([], s)
  | (now, u) :: rest =>
    let (outcome, s) := use s now u
    let (outcomes, s) := useAll use s rest
    (outcome :: outcomes, s)

/-- The lifetime of a request ends before the clock does. -/
def Request.EndsInTime (now : Instant) (r : Request) : Prop :=
  ∀ ttl, r.ttl? = some ttl → (now.add? ttl).isSome

def Use.EndsInTime (now : Instant) : Use → Prop
  | .request r => r.EndsInTime now
  | .count => True

namespace Ideal
variable {m : Ideal} {now : Instant} {key : String}

def cell (m : Ideal) (key : String) : Cell := (m.lookup key).map Written.entry

theorem isVisible_of_visible? {m : Ideal} {now : Instant} {key : String} {w : Written}
    (h : m.visible? now key = some w) : w.isVisible now = true :=
  (Option.filter_eq_some_iff.1 h).2

theorem live_cell (m : Ideal) (now : Instant) (key : String) :
    (m.cell key).live now = (m.visible? now key).map Written.entry := by
  unfold cell visible?
  cases m.lookup key with
  | none => rfl
  | some w =>
    rw [Option.map_some, Cell.live_some, Written.isLive_entry]
    cases h : w.isVisible now <;> simp [Option.filter, h]

theorem cell_insert (m : Ideal) (key other : String) (w : Written) :
    cell (m.insert key w) other = if other = key then some w.entry else m.cell other := by
  unfold cell
  split
  · next h =>
    subst h
    rw [AList.lookup_insert]
    rfl
  · next h => rw [AList.lookup_insert_ne h]

theorem cell_erase (m : Ideal) (key other : String) :
    cell (m.erase key) other = if other = key then none else m.cell other := by
  unfold cell
  split
  · next h =>
    subst h
    rw [AList.lookup_erase]
    rfl
  · next h => rw [AList.lookup_erase_ne h]

theorem deadline_of_endsInTime {ttl : Option Duration} (h : ∀ d, ttl = some d → (now.add? d).isSome) :
    Memory.deadline now ttl = .ok (ttl.map now.advance) := by
  cases ttl with
  | none => rfl
  | some d => exact Cell.deadline_eq_ok (h d rfl)

/-- The sum that the memory writes is the one of the integers that the texts stand for. -/
theorem sum_eq (key value : String) (amount : Int) : Memory.sum key value amount =
    match Text.Integer.word? value with
    | none => .error (.internal (.notAnInteger key))
    | some n =>
      if Text.Integer.IsWord (n + amount) then .ok (n + amount) else .error (.internal (.overflow key)) := by
  rw [← Text.Integer.parse_toOption]
  simp only [Memory.sum, Memory.counterBounds, ← Text.Integer.contains_iff_isWord]
  cases Text.Integer.parse (Bounds.signed 64) value <;> rfl

theorem checkTtl_eq (r : Request) :
    r.checkTtl = if isShort r then .error (.invalidArgument .ttlTooShort) else .ok () := by
  unfold isShort
  cases httl : r.ttl? with
  | none => simp [Request.checkTtl, httl]
  | some ttl =>
    have hshort : ttl.millis = 0 ↔ ttl.nanos < 1000000 := Nat.div_eq_zero_iff_lt (by decide)
    simp [Request.checkTtl, httl, Store.checkTtl, hshort]

theorem raise_cell (m : Ideal) (w : Written) (amount : Int) {ttl : Option Duration}
    (hdue : Memory.deadline now ttl = .ok (ttl.map now.advance)) :
    (m.cell key).raise now key w.entry amount ttl =
      (.ok (m.raise now key w amount ttl).1, cell (m.raise now key w amount ttl).2 key) := by
  unfold Cell.raise raise
  rw [show w.entry.value = w.value from rfl, sum_eq]
  cases Text.Integer.word? w.value with
  | none => rfl
  | some n =>
    by_cases hword : Text.Integer.IsWord (n + amount)
    · simp only [if_pos hword, cell_insert, if_true]
      obtain ⟨value, since, ttl'⟩ := w
      cases ttl' with
      | some d => rfl
      | none => simp only [Written.entry, Written.revalued, Option.map_none, hdue]
    · simp only [if_neg hword]

/-- The cell of a key answers a request as the map does, and holds what the map holds there. -/
theorem serve_cell (m : Ideal) {r : Request} (hr : r.key? = some key) (htime : r.EndsInTime now) :
    (m.cell key).serve now r = (.ok (m.serve now r).1, cell (m.serve now r).2 key) := by
  unfold Cell.serve serve
  rw [checkTtl_eq]
  by_cases hshort : isShort r = true
  · simp only [if_pos hshort]
  · simp only [if_neg hshort]
    have hlive := m.live_cell now key
    cases r with
    | ping => cases hr
    | get _ =>
      cases hr
      simp only [Cell.perform, Cell.get, hlive, perform, Option.map_map]
      rfl
    | set _ value ttl =>
      cases hr
      have hdue : Memory.deadline now ttl = _ := deadline_of_endsInTime htime
      simp only [Cell.perform, Cell.set, hdue, perform, cell_insert, if_true]
      rfl
    | delete _ =>
      cases hr
      simp only [Cell.perform, Cell.delete, hlive, perform, cell_erase, if_true, Option.isSome_map]
    | setIfAbsent _ value ttl =>
      cases hr
      have hdue : Memory.deadline now (some ttl) = _ := deadline_of_endsInTime htime
      cases hv : m.visible? now key with
      | some w => simp only [Cell.perform, Cell.setIfAbsent, hlive, perform, hv, Option.map_some]
      | none =>
        simp only [Cell.perform, Cell.setIfAbsent, hlive, perform, hv, Option.map_none, hdue, cell_insert, if_true]
        rfl
    | increment _ amount ttl =>
      cases hr
      have hdue : Memory.deadline now ttl = _ := deadline_of_endsInTime htime
      cases hv : m.visible? now key with
      | none =>
        simp only [Cell.perform, Cell.increment, hlive, perform, hv, Option.map_none, hdue, cell_insert, if_true]
        rfl
      | some w =>
        simp only [Cell.perform, Cell.increment, hlive, perform, hv, Option.map_some]
        exact raise_cell m w amount hdue
    | ttlRemaining _ =>
      cases hr
      cases hv : m.visible? now key with
      | none => simp only [Cell.perform, Cell.ttlRemaining, hlive, perform, hv, Option.map_none, Option.bind_none,
          Option.filter_none]
      | some w =>
        simp only [Cell.perform, Cell.ttlRemaining, hlive, perform, hv, Option.map_some, Option.bind_some,
          Written.left_eq (isVisible_of_visible? hv)]
    | compareAndDelete _ expected =>
      cases hr
      cases hv : m.visible? now key with
      | none => simp only [Cell.perform, Cell.compareAndDelete, hlive, perform, hv, Option.map_none]
      | some w =>
        simp only [Cell.perform, Cell.compareAndDelete, hlive, perform, hv, Option.map_some]
        by_cases hvalue : w.value = expected
        · simp only [hvalue, Written.entry, if_true, cell_erase]
        · simp only [hvalue, Written.entry, if_false]

theorem cell_serve_other (m : Ideal) (now : Instant) {r : Request} {other : String} (hr : r.key? ≠ some other) :
    cell (m.serve now r).2 other = m.cell other := by
  have hinsert : ∀ k w, r.key? = some k → cell (m.insert k w) other = m.cell other := by
    intro k w hk
    rw [cell_insert, if_neg fun h : other = k => hr (hk.trans (congrArg some h.symm))]
  have herase : ∀ k, r.key? = some k → cell (m.erase k) other = m.cell other := by
    intro k hk
    rw [cell_erase, if_neg fun h : other = k => hr (hk.trans (congrArg some h.symm))]
  unfold serve
  split
  · rfl
  · cases r with
    | ping => rfl
    | get k => rfl
    | ttlRemaining k => rfl
    | set k value ttl => exact hinsert k _ rfl
    | delete k => exact herase k rfl
    | setIfAbsent k value ttl =>
      simp only [perform]
      split
      · rfl
      · exact hinsert k _ rfl
    | increment k amount ttl =>
      simp only [perform, raise]
      split
      · exact hinsert k _ rfl
      · split
        · rfl
        · split
          · exact hinsert k _ rfl
          · rfl
    | compareAndDelete k expected =>
      simp only [perform]
      split
      · rfl
      · split
        · exact herase k rfl
        · rfl

end Ideal

theorem Entries.mem_keys_keepLive (es : Entries) (now : Instant) (key : String) :
    key ∈ (es.keepLive now).toList.map Prod.fst ↔ (es.visible? now key).isSome := by
  have hfind : es.visible? now key = (es.keepLive now).toList.lookup key :=
    (es.find?_filter (fun kv => kv.2.isLive now) key).symm
  rw [hfind]
  constructor
  · intro hmem
    obtain ⟨⟨k, e⟩, hke, rfl⟩ := List.mem_map.1 hmem
    rw [← Option.ne_none_iff_isSome]
    intro hnone
    exact absurd (List.lookup_eq_none_iff.1 hnone _ hke) (by simp)
  · intro hsome
    by_contra hmem
    rw [lookup_eq_none hmem] at hsome
    cases hsome

namespace Memory

/-- From `now` on, what can be seen in the memory is what can be seen in the map. -/
def Refines (m : Memory) (now : Instant) (ideal : Ideal) : Prop := ∀ key, m.Shows now key (ideal.cell key)

namespace Refines
variable {m : Memory} {now : Instant} {ideal : Ideal}

theorem visible?_eq (h : m.Refines now ideal) (key : String) :
    m.visible? now key = (ideal.visible? now key).map Written.entry :=
  (h key now (Nat.le_refl _)).trans (ideal.live_cell now key)

theorem later {t : Instant} (h : m.Refines now ideal) (ht : now.nanos ≤ t.nanos) : m.Refines t ideal :=
  fun key => (h key).later ht

theorem serve (h : m.Refines now ideal) {r : Request} (htime : r.EndsInTime now) :
    (m.serve now r).1 = .ok (ideal.serve now r).1 ∧ (m.serve now r).2.Refines now (ideal.serve now r).2 := by
  cases hk : r.key? with
  | none =>
    cases r with
    | ping => exact ⟨rfl, h⟩
    | _ => cases hk
  | some key =>
    have hagrees := serve_agrees (h key) hk
    rw [ideal.serve_cell hk htime] at hagrees
    refine ⟨hagrees.outcome, ?_⟩
    intro other
    by_cases hne : other = key
    · subst hne
      exact hagrees.shows
    · have hother : r.key? ≠ some other := by
        rw [hk]
        exact fun heq => hne (Option.some.inj heq).symm
      rw [ideal.cell_serve_other now hother]
      exact hagrees.frame.shows hne (h other)

theorem size_eq (h : m.Refines now ideal) : m.size now = ideal.count now := by
  have hkeys : ((m.entries.keepLive now).toList.map Prod.fst).Perm
      (ideal.keys.filter fun key => (ideal.visible? now key).isSome) := by
    refine (List.perm_ext_iff_of_nodup (m.entries.keepLive now).nodup (ideal.keys_nodup.filter _)).2 ?_
    intro key
    have hvisible : (m.entries.visible? now key).isSome = (ideal.visible? now key).isSome := by
      rw [show m.entries.visible? now key = _ from h.visible?_eq key, Option.isSome_map]
    rw [Entries.mem_keys_keepLive, hvisible, List.mem_filter]
    constructor
    · intro hsome
      obtain ⟨w, hw⟩ := Option.isSome_iff_exists.1 hsome
      have hmem : key ∈ ideal := AList.lookup_isSome.1 (Option.isSome_of_eq_some (Option.filter_eq_some_iff.1 hw).1)
      exact ⟨AList.mem_keys.1 hmem, hsome⟩
    · exact fun hmem => hmem.2
  calc m.size now = ((m.entries.keepLive now).toList.map Prod.fst).length := (List.length_map Prod.fst).symm
    _ = ideal.count now := hkeys.length_eq

theorem use (h : m.Refines now ideal) {u : Use} (htime : u.EndsInTime now) :
    (m.use now u).1 = (ideal.use now u).1 ∧ (m.use now u).2.Refines now (ideal.use now u).2 := by
  cases u with
  | request r =>
    obtain ⟨hreply, hrefines⟩ := h.serve htime
    exact ⟨congrArg (Outcome.served r) hreply, hrefines⟩
  | count => exact ⟨congrArg Outcome.counted h.size_eq, h⟩

theorem useAll {uses : List (Instant × Use)} (h : m.Refines now ideal) (hfrom : ∀ x ∈ uses, now.nanos ≤ x.1.nanos)
    (hsorted : uses.Pairwise fun x y => x.1.nanos ≤ y.1.nanos) (htime : ∀ x ∈ uses, x.2.EndsInTime x.1) :
    (Store.useAll Memory.use m uses).1 = (Store.useAll Ideal.use ideal uses).1 ∧
      ∀ t : Instant, now.nanos ≤ t.nanos → (∀ x ∈ uses, x.1.nanos ≤ t.nanos) →
        (Store.useAll Memory.use m uses).2.Refines t (Store.useAll Ideal.use ideal uses).2 := by
  induction uses generalizing m now ideal with
  | nil => exact ⟨rfl, fun t ht _ => h.later ht⟩
  | cons x rest ih =>
    obtain ⟨t, u⟩ := x
    obtain ⟨hx, hrest⟩ := List.forall_mem_cons.1 htime
    obtain ⟨hle, hsorted⟩ := List.pairwise_cons.1 hsorted
    obtain ⟨hfirst, hrefines⟩ := (h.later (hfrom _ List.mem_cons_self)).use hx
    obtain ⟨houtcomes, hafter⟩ := ih hrefines hle hsorted hrest
    refine ⟨?_, ?_⟩
    · simp only [Store.useAll, hfirst, houtcomes]
    · intro last _ hlast
      obtain ⟨ht, hlast⟩ := List.forall_mem_cons.1 hlast
      exact hafter last ht hlast

end Refines

end Memory

theorem empty_refines (now : Instant) : Memory.empty.Refines now ∅ := by
  intro key later _
  rw [Ideal.cell, AList.lookup_empty]
  rfl

/-- However the store is used at instants that do not go back, it answers as the ideal map does, and after that the same
can be seen in both at any time. -/
theorem answers_as_ideal (uses : List (Instant × Use)) (hsorted : uses.Pairwise fun x y => x.1.nanos ≤ y.1.nanos)
    (htime : ∀ x ∈ uses, x.2.EndsInTime x.1) :
    (useAll Memory.use .empty uses).1 = (useAll Ideal.use ∅ uses).1 ∧
      ∀ later : Instant, (∀ x ∈ uses, x.1.nanos ≤ later.nanos) → ∀ key,
        (useAll Memory.use .empty uses).2.visible? later key =
          (Ideal.visible? (useAll Ideal.use ∅ uses).2 later key).map Written.entry := by
  have hstart : ∀ x ∈ uses, (⟨0⟩ : Instant).nanos ≤ x.1.nanos := fun _ _ => Nat.zero_le _
  obtain ⟨houtcomes, hafter⟩ := (empty_refines ⟨0⟩).useAll hstart hsorted htime
  refine ⟨houtcomes, ?_⟩
  intro later hlater key
  exact (hafter later (Nat.zero_le _) hlater).visible?_eq key

/-- A count that goes below zero while it lives, and one that is as large as it can be. -/
def liveCounts : List (Instant × Use) := [
  (⟨0⟩, .request (.increment "total" 5 (some (.ofSeconds 1)))),
  (⟨0⟩, .request (.increment "total" (-7) none)),
  (⟨0⟩, .request (.set "top" "+9223372036854775807" none)),
  (⟨0⟩, .request (.increment "top" 1 none))]

theorem useAll_append {σ : Type} (use : σ → Instant → Use → Outcome × σ) (s : σ) (us vs : List (Instant × Use)) :
    (useAll use s (us ++ vs)).1 = (useAll use s us).1 ++ (useAll use (useAll use s us).2 vs).1 := by
  induction us generalizing s with
  | nil => rfl
  | cons x us ih => exact congrArg ((use s x.1 x.2).1 :: ·) (ih _)

theorem liveCounts_outcomes : (useAll Ideal.use ∅ liveCounts).1 =
    [.served (.increment "total" 5 (some (.ofSeconds 1))) (.ok (.ok 5)),
      .served (.increment "total" (-7) none) (.ok (.ok (-2))),
      .served (.set "top" "+9223372036854775807" none) (.ok (.ok ())),
      .served (.increment "top" 1 none) (.ok (.error (.internal (.overflow "top"))))] := by
  simp only [liveCounts, useAll, Ideal.use, List.cons.injEq, Outcome.served.injEq, Except.ok.injEq, heq_eq_eq, true_and,
    and_true]
  decide +kernel

/-- After these counts so many short-lived keys, one after the other, that the store sweeps them, and a count at the end. -/
def manyKeys : List (Instant × Use) :=
  liveCounts ++ ((List.range 300).map (fun i => (⟨i * 2000000⟩, .request (.increment s!"k{i}" 1 (some (.ofMillis 1))))) ++
    [(⟨600000000⟩, .count)])

theorem many_keys_as_ideal :
    (manyKeys.Pairwise fun x y => x.1.nanos ≤ y.1.nanos) ∧ (∀ x ∈ manyKeys, x.2.EndsInTime x.1) ∧
      (useAll Memory.use .empty manyKeys).1 = (useAll Ideal.use ∅ manyKeys).1 ∧
      (∃ later, (useAll Memory.use .empty manyKeys).1 =
        [.served (.increment "total" 5 (some (.ofSeconds 1))) (.ok (.ok 5)),
          .served (.increment "total" (-7) none) (.ok (.ok (-2))),
          .served (.set "top" "+9223372036854775807" none) (.ok (.ok ())),
          .served (.increment "top" 1 none) (.ok (.error (.internal (.overflow "top"))))] ++ later) ∧
      ∀ later : Instant, (∀ x ∈ manyKeys, x.1.nanos ≤ later.nanos) → ∀ key,
        (useAll Memory.use .empty manyKeys).2.visible? later key =
          (Ideal.visible? (useAll Ideal.use ∅ manyKeys).2 later key).map Written.entry := by
  have hsorted : manyKeys.Pairwise fun x y => x.1.nanos ≤ y.1.nanos := by
    refine List.pairwise_append.2 ⟨by decide, List.pairwise_append.2 ⟨?_, List.pairwise_singleton .., ?_⟩, ?_⟩
    · refine List.pairwise_map.2 (List.pairwise_lt_range.imp ?_)
      intro i j hij
      exact Nat.mul_le_mul_right _ (Nat.le_of_lt hij)
    · intro x hx y hy
      obtain ⟨i, hi, rfl⟩ := List.mem_map.1 hx
      cases List.mem_singleton.1 hy
      have hlt := List.mem_range.1 hi
      dsimp only
      omega
    · intro x hx y _
      have hstart : ∀ x ∈ liveCounts, x.1.nanos = 0 := by decide
      rw [hstart x hx]
      exact Nat.zero_le _
  have htime : ∀ x ∈ manyKeys, x.2.EndsInTime x.1 := by
    intro x hx
    rcases List.mem_append.1 hx with hx | hx
    · have hends : ∀ x ∈ liveCounts, x.2.EndsInTime x.1 := by
        simp only [liveCounts, List.forall_mem_cons, Use.EndsInTime, Request.EndsInTime, Request.ttl?, Option.some.injEq]
        refine ⟨?_, nofun, nofun, nofun, List.forall_mem_nil _⟩
        rintro ttl rfl
        rfl
      exact hends x hx
    · rcases List.mem_append.1 hx with hx | hx
      · obtain ⟨i, hi, rfl⟩ := List.mem_map.1 hx
        intro ttl httl
        cases httl
        have hlt := List.mem_range.1 hi
        have hclock : (i * 2000000 + 1 * 1000000) / 1000000000 < 2 ^ 63 := by omega
        exact Option.isSome_iff_exists.2 ⟨_, if_pos hclock⟩
      · cases List.mem_singleton.1 hx
        trivial
  obtain ⟨houtcomes, hseen⟩ := answers_as_ideal manyKeys hsorted htime
  have hlive := houtcomes.trans (useAll_append Ideal.use ∅ liveCounts _)
  rw [liveCounts_outcomes] at hlive
  exact ⟨hsorted, htime, houtcomes, ⟨_, hlive⟩, hseen⟩

end Coordination.Store
