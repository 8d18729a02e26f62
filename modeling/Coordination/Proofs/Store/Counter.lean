import Coordination.Proofs.Store.Cell

/-! # Counters

A key that is only ever incremented by one, always with a lifetime, holds the number of increments that were answered. Its
time runs from the first of them, so up to a horizon that none of the lifetimes ends before, none is forgotten.
-/
namespace Coordination.Store

/-- The cell holds the count `n`, and will do so until the horizon at least. -/
def Cell.Counts (c : Cell) (n : Nat) (horizon : Int) : Prop :=
  n = 0 ∧ c = none ∨
    0 < n ∧ Memory.counterBounds.contains n = true ∧ ∃ t : Instant, horizon ≤ t.nanos ∧ c = some ⟨toString (n : Int), some t⟩

abbrev countRequest (key : String) (ttl : Duration) : Request := .increment key 1 (some ttl)

theorem countRequest_key (key : String) (ttl : Duration) : (countRequest key ttl).key? = some key := rfl

/-- Why a count was not taken. -/
inductive Uncounted (now : Instant) (key : String) (ttl : Duration) (n : Nat) : Except Crash (Except Failure Int) → Prop
  | short (h : ttl.millis = 0) : Uncounted now key ttl n (.ok (.error (.invalidArgument .ttlTooShort)))
  | endless (h : now.add? ttl = none) : Uncounted now key ttl n (.error .deadlinePastClock)
  | overflow (h : Memory.counterBounds.contains (n + 1 : Nat) = false) :
    Uncounted now key ttl n (.ok (.error (.internal (.overflow key))))

theorem Uncounted.ne_ok {now : Instant} {key : String} {ttl : Duration} {n : Nat} {o : Except Crash (Except Failure Int)}
    (h : Uncounted now key ttl n o) (count : Int) : o ≠ .ok (.ok count) := by
  cases h <;> simp

theorem Uncounted.cause {now : Instant} {key : String} {ttl : Duration} {n : Nat} {o : Except Crash (Except Failure Int)}
    (h : Uncounted now key ttl n o) :
    ttl.millis = 0 ∨ now.add? ttl = none ∨ Memory.counterBounds.contains (n + 1 : Nat) = false := by
  cases h with
  | short h => exact .inl h
  | endless h => exact .inr (.inl h)
  | overflow h => exact .inr (.inr h)

theorem counterBounds_zero : Memory.counterBounds.contains 0 = true := by decide

theorem counterBounds_one : Memory.counterBounds.contains 1 = true := by decide

theorem counterBounds_of_le {m n : Int} (hpos : 0 ≤ m) (hle : m ≤ n) (h : Memory.counterBounds.contains n = true) :
    Memory.counterBounds.contains m = true :=
  Bounds.contains_iff.2 ⟨Int.le_trans (Bounds.contains_iff.1 counterBounds_zero).1 hpos,
    Int.le_trans hle (Bounds.contains_iff.1 h).2⟩

theorem Memory.sum_toString (key : String) {n : Int} (h : counterBounds.contains n = true) (amount : Int) :
    sum key (toString n) amount =
      if counterBounds.contains (n + amount) then .ok (n + amount) else .error (.internal (.overflow key)) := by
  rw [sum, Text.Integer.parse_toString counterBounds_zero h]

namespace Cell
variable {c : Cell} {n : Nat} {horizon : Int} {now : Instant}

theorem counts_none (horizon : Int) : Counts none 0 horizon := .inl ⟨rfl, rfl⟩

theorem Counts.live (h : c.Counts n horizon) (hnow : now.nanos < horizon) :
    (c.live now).map Entry.value = if n = 0 then none else some (toString (n : Int)) := by
  rcases h with ⟨rfl, rfl⟩ | ⟨hpos, _, t, ht, rfl⟩
  · rfl
  · rw [live_until, if_pos (by omega), if_neg (Nat.ne_of_gt hpos)]
    rfl

section Requests
variable {ttl : Duration} (hlong : ttl.millis ≠ 0) (key : String)
include hlong

theorem serve_count_of_free (hlive : c.live now = none) : c.serve now (countRequest key ttl) =
    match now.add? ttl with
    | some t => (.ok (.ok 1), some ⟨toString (1 : Int), some t⟩)
    | none => (.error .deadlinePastClock, c) := by
  have hcheck : (countRequest key ttl).checkTtl = .ok () := checkTtl_eq_ok.2 hlong
  simp only [Cell.serve, hcheck, perform, increment, hlive, Memory.deadline]
  cases now.add? ttl <;> rfl

theorem serve_count_of_live {count : Int} {t : Instant} (hlive : c.live now = some ⟨toString count, some t⟩)
    (hcount : Memory.counterBounds.contains count = true) : c.serve now (countRequest key ttl) =
      if Memory.counterBounds.contains (count + 1) then
        (.ok (.ok (count + 1)), some ⟨toString (count + 1), some t⟩)
      else (.ok (.error (.internal (.overflow key))), c) := by
  have hcheck : (countRequest key ttl).checkTtl = .ok () := checkTtl_eq_ok.2 hlong
  simp only [Cell.serve, hcheck, perform, increment, hlive, raise, Memory.sum_toString key hcount]
  cases Memory.counterBounds.contains (count + 1) <;> rfl

end Requests

/-- A request to count adds one, unless its lifetime cannot be set or the count would leave its bounds. -/
theorem Counts.serve (h : c.Counts n horizon) (hnow : now.nanos < horizon) {ttl : Duration}
    (hlater : ttl.millis ≠ 0 → horizon ≤ now.nanos + ttl.nanos) (key : String) :
    (∃ c', c.serve now (countRequest key ttl) = (.ok (.ok ((n + 1 : Nat) : Int)), c') ∧ c'.Counts (n + 1) horizon) ∨
      ∃ o, c.serve now (countRequest key ttl) = (o, c) ∧ Uncounted now key ttl n o := by
  by_cases hshort : ttl.millis = 0
  · refine .inr ⟨_, ?_, .short hshort⟩
    have hcheck : (countRequest key ttl).checkTtl = .error (.invalidArgument .ttlTooShort) := if_pos hshort
    rw [Cell.serve, hcheck]
  · rcases h with ⟨rfl, rfl⟩ | ⟨hpos, hbounds, t, ht, rfl⟩
    · rw [serve_count_of_free hshort key (live_none now)]
      cases hends : now.add? ttl with
      | none => exact .inr ⟨_, rfl, .endless hends⟩
      | some t =>
        have ht := Instant.add?_eq_some hends
        have hhorizon := hlater hshort
        exact .inl ⟨_, rfl, .inr ⟨Nat.one_pos, counterBounds_one, t, by omega, rfl⟩⟩
    · have hlive : Cell.live (some ⟨toString (n : Int), some t⟩) now = some ⟨toString (n : Int), some t⟩ := by
        rw [live_until, if_pos (by omega)]
      rw [serve_count_of_live hshort key hlive hbounds, ← Int.natCast_succ]
      cases hnext : Memory.counterBounds.contains (n + 1 : Nat) with
      | false => exact .inr ⟨_, rfl, .overflow hnext⟩
      | true => exact .inl ⟨_, rfl, .inr ⟨Nat.succ_pos n, hnext, t, ht, rfl⟩⟩

end Cell

/-- The memory shows the count `n` under a key, and will do so until the horizon at least. -/
def Memory.Counts (m : Memory) (now : Instant) (key : String) (n : Nat) (horizon : Int) : Prop :=
  ∃ c, m.Shows now key c ∧ c.Counts n horizon

namespace Memory.Counts
variable {m : Memory} {now : Instant} {key : String} {n : Nat} {horizon : Int}

theorem later {t : Instant} (h : m.Counts now key n horizon) (ht : now.nanos ≤ t.nanos) : m.Counts t key n horizon := by
  obtain ⟨c, hc, hn⟩ := h
  exact ⟨c, hc.later ht, hn⟩

theorem visible (h : m.Counts now key n horizon) (hnow : now.nanos < horizon) :
    (m.visible? now key).map Entry.value = if n = 0 then none else some (toString (n : Int)) := by
  obtain ⟨c, hc, hn⟩ := h
  rw [hc now (Nat.le_refl _)]
  exact hn.live hnow

theorem kept {m' : Memory} {r : Request} {o : Except Crash (Except Failure r.Reply)} (h : m.Counts now key n horizon)
    (hr : r.leaves key = true) (hserve : m.serve now r = (o, m')) : m'.Counts now key n horizon := by
  obtain ⟨c, hc, hn⟩ := h
  exact ⟨c, hc.kept hr hserve, hn⟩

theorem serve (h : m.Counts now key n horizon) (hnow : now.nanos < horizon) {ttl : Duration}
    (hlater : ttl.millis ≠ 0 → horizon ≤ now.nanos + ttl.nanos) :
    (m.serve now (countRequest key ttl)).1 = .ok (.ok ((n + 1 : Nat) : Int)) ∧
        (m.serve now (countRequest key ttl)).2.Counts now key (n + 1) horizon ∨
      Uncounted now key ttl n (m.serve now (countRequest key ttl)).1 ∧
        (m.serve now (countRequest key ttl)).2.Counts now key n horizon := by
  obtain ⟨c, hc, hn⟩ := h
  rcases hn.serve hnow hlater key with ⟨c', hserve, hc'⟩ | ⟨o, hserve, ho⟩
  · obtain ⟨m', hm, hshows, _⟩ := hc.serve (countRequest_key key ttl) hserve
    rw [hm]
    exact .inl ⟨rfl, c', hshows, hc'⟩
  · obtain ⟨m', hm, hshows, _⟩ := hc.serve (countRequest_key key ttl) hserve
    rw [hm]
    exact .inr ⟨ho, c, hshows, hn⟩

end Memory.Counts

namespace Memory
variable {m : Memory} {now : Instant} {key : String} {ttl : Duration} {n : Int}

/-- The count that is seen under a key, zero where nothing is. -/
def count? (m : Memory) (now : Instant) (key : String) : Option Int :=
  match m.visible? now key with
  | none => some 0
  | some e => (Text.Integer.parse counterBounds e.value).toOption

def countEnd (m : Memory) (now : Instant) (key : String) (ttl : Duration) : Instant :=
  ((m.visible? now key).bind Entry.expiresAt).getD (now.advance ttl)

theorem count?_congr {m' : Memory} (h : m'.visible? now key = m.visible? now key) : m'.count? now key = m.count? now key := by
  rw [count?, count?, h]

theorem countEnd_congr {m' : Memory} (h : m'.visible? now key = m.visible? now key) (ttl : Duration) :
    m'.countEnd now key ttl = m.countEnd now key ttl := by
  rw [countEnd, countEnd, h]

theorem contains_of_count? (h : m.count? now key = some n) : counterBounds.contains n = true := by
  unfold count? at h
  split at h
  · cases h
    exact counterBounds_zero
  · next e _ =>
    cases hparse : Text.Integer.parse counterBounds e.value with
    | error fault => rw [hparse] at h; cases h
    | ok k =>
      rw [hparse] at h
      cases h
      exact Text.Integer.contains_of_parse counterBounds_zero hparse

theorem lt_countEnd (m : Memory) (now : Instant) (key : String) (hlong : ttl.millis ≠ 0) :
    now.nanos < (m.countEnd now key ttl).nanos := by
  have hadvance := now.lt_advance hlong
  unfold countEnd
  cases hvisible : m.visible? now key with
  | none => exact hadvance
  | some e =>
    obtain ⟨_, hlive⟩ := Cell.live_eq_some (c := m.entries.find? key) hvisible
    obtain ⟨value, _ | deadline⟩ := e
    · exact hadvance
    · simpa [Entry.isLive] using hlive

theorem serve_count_cell (hlong : ttl.millis ≠ 0) (hends : (now.add? ttl).isSome) (hcount : m.count? now key = some n)
    (hnext : counterBounds.contains (n + 1) = true) : Cell.serve (m.entries.find? key) now (countRequest key ttl) =
      (.ok (.ok (n + 1)), some ⟨toString (n + 1), some (m.countEnd now key ttl)⟩) := by
  have hcheck : (countRequest key ttl).checkTtl = .ok () := checkTtl_eq_ok.2 hlong
  have hlive : Cell.live (m.entries.find? key) now = m.visible? now key := rfl
  simp only [Cell.serve, hcheck, Cell.perform, Cell.increment, hlive, countEnd]
  unfold count? at hcount
  cases hvisible : m.visible? now key with
  | none =>
    rw [hvisible] at hcount
    cases hcount
    simp only [Cell.deadline_eq_ok hends]
    rfl
  | some e =>
    have hparse : Text.Integer.parse counterBounds e.value = .ok n := by
      rw [hvisible] at hcount
      cases hparse : Text.Integer.parse counterBounds e.value with
      | error fault => simp only [hparse] at hcount; cases hcount
      | ok k => simp only [hparse] at hcount; cases hcount; rfl
    have hsum : sum key e.value 1 = .ok (n + 1) := by rw [sum, hparse]; exact if_pos hnext
    simp only [Cell.raise, hsum]
    cases hexpires : e.expiresAt with
    | some deadline => simp [hexpires]
    | none => simp [hexpires, Cell.deadline_eq_ok hends]

/-- A count below the largest one is raised by one, and nothing else is changed. -/
theorem serve_count (hlong : ttl.millis ≠ 0) (hends : (now.add? ttl).isSome) (hcount : m.count? now key = some n)
    (hbelow : n < counterBounds.high) : ∃ m', m.serve now (countRequest key ttl) = (.ok (.ok (n + 1)), m') ∧
      m'.visible? now key = some ⟨toString (n + 1), some (m.countEnd now key ttl)⟩ ∧ m.SameBut m' now key := by
  have hnext : counterBounds.contains (n + 1) = true := by
    have hbounds := Bounds.contains_iff.1 (contains_of_count? hcount)
    exact Bounds.contains_iff.2 ⟨by omega, by omega⟩
  obtain ⟨m', hm, hshows, hframe⟩ :=
    (m.shows_find? now key).serve (countRequest_key key ttl) (serve_count_cell hlong hends hcount hnext)
  refine ⟨m', hm, ?_, hframe⟩
  rw [hshows now (Nat.le_refl _), Cell.live_until, if_pos (m.lt_countEnd now key hlong)]

theorem sum_of_raised {c : Cell} {e : Entry} {amount : Int} {ttl : Option Duration}
    (h : (c.raise now key e amount ttl).1 = .ok (.ok n)) : sum key e.value amount = .ok n := by
  unfold Cell.raise at h
  split at h
  · cases h
  · next k hsum =>
    split at h
    · exact hsum.trans (Except.ok.inj h)
    · split at h
      · cases h
      · exact hsum.trans (Except.ok.inj h)

theorem parse_of_sum {value : String} {amount : Int} (h : sum key value amount = .ok n) :
    Text.Integer.parse counterBounds value = .ok (n - amount) := by
  unfold sum at h
  split at h
  · cases h
  · next k hparse =>
    split at h
    · cases h
      rw [hparse, Int.add_sub_cancel]
    · cases h

theorem count?_of_served (h : (m.serve now (countRequest key ttl)).1 = .ok (.ok n)) : m.count? now key = some (n - 1) := by
  rw [(serve_agrees (m.shows_find? now key) (countRequest_key key ttl)).outcome, Cell.serve] at h
  split at h
  · cases h
  · have hlive : Cell.live (m.entries.find? key) now = m.visible? now key := rfl
    simp only [Cell.perform, Cell.increment, hlive] at h
    rw [count?]
    cases hvisible : m.visible? now key with
    | none =>
      rw [hvisible] at h
      dsimp only at h
      split at h
      · cases h
      · obtain rfl : 1 = n := Except.ok.inj (Except.ok.inj h)
        rfl
    | some e =>
      rw [hvisible] at h
      dsimp only
      rw [parse_of_sum (sum_of_raised h)]
      rfl

end Memory

end Coordination.Store
