/-! # Ranges of integers

The words that counters, statuses and settings are kept in, as closed ranges of integers.
-/
namespace Coordination

/-- A closed range of integers. -/
structure Bounds where
  low : Int
  high : Int
deriving DecidableEq, Repr

namespace Bounds

def unsigned (bits : Nat) : Bounds := ⟨0, Nat.pow 2 bits - 1⟩

def signed (bits : Nat) : Bounds := ⟨-Nat.pow 2 (bits - 1), Nat.pow 2 (bits - 1) - 1⟩

def contains (b : Bounds) (n : Int) : Bool := b.low ≤ n && n ≤ b.high

/-- The member of the range nearest to `n` from below, for numbers that are at least `low`. -/
def capped (b : Bounds) (n : Int) : Int := if n ≤ b.high then n else b.high

theorem contains_iff {b : Bounds} {n : Int} : b.contains n = true ↔ b.low ≤ n ∧ n ≤ b.high := by
  simp [contains]

theorem capped_eq {b : Bounds} {n : Int} (h : b.contains n = true) : b.capped n = n := by
  simp [capped, (contains_iff.1 h).2]

end Bounds

end Coordination
