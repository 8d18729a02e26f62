/-! # Shortest decimals

The decimal with the fewest digits that still reads back as a given binary number, and of those the
nearest one. Everything is decided with whole numbers.
-/
namespace Coordination

/-- The number `digits * 10 ^ exponent`. -/
structure Decimal where
  digits : Nat
  exponent : Int
deriving DecidableEq, Repr

namespace Decimal

/-- The positive number `significand * 2 ^ exponent`. Next to a power of two the gap below is half of
the gap above. -/
structure Binary where
  significand : Nat
  exponent : Int
  halfGapBelow : Bool
deriving DecidableEq, Repr

/-- The finite number that the lower 63 bits of a double stand for. -/
def Binary.ofBits (bits : UInt64) : Binary :=
  let biased : Nat := bits.toNat / Nat.pow 2 52 % Nat.pow 2 11
  let fraction := bits.toNat % Nat.pow 2 52
  if biased = 0 then ⟨fraction, -1074, false⟩
  else ⟨Nat.pow 2 52 + fraction, (biased : Int) - 1075, fraction == 0 && biased != 1⟩

/-- Quarters of the last binary place, and the decimal grid of step `10 ^ k`, over one denominator. -/
structure Grid where
  quarter : Nat
  step : Nat

def Binary.grid (x : Binary) (k : Int) : Grid :=
  let p := x.exponent - 2
  ⟨Nat.pow 2 p.toNat * Nat.pow 10 (-k).toNat, Nat.pow 10 k.toNat * Nat.pow 2 (-p).toNat⟩

/-- Whether `d` steps of the grid round to `x`: ends count when the significand is even. -/
def Binary.admits (x : Binary) (g : Grid) (d : Nat) : Bool :=
  let place := d * g.step
  let low := (4 * x.significand - if x.halfGapBelow then 1 else 2) * g.quarter
  let high := (4 * x.significand + 2) * g.quarter
  if x.significand % 2 = 0 then low ≤ place && place ≤ high else low < place && place < high

/-- The neighbour of `x` on the grid that rounds to it; of two the nearer, of two as near the even. -/
def Binary.onGrid? (x : Binary) (k : Int) : Option Decimal :=
  let g := x.grid k
  let exact := 4 * x.significand * g.quarter
  let d := exact / g.step
  let below := x.admits g d && d != 0
  let above := x.admits g (d + 1)
  let rest := exact - d * g.step
  if below && above then
    if 2 * rest < g.step || (2 * rest == g.step && d % 2 == 0) then some ⟨d, k⟩ else some ⟨d + 1, k⟩
  else if below then some ⟨d, k⟩
  else if above then some ⟨d + 1, k⟩
  else none

/-- The exponent of the first decimal digit, from a guess that is off by one at most. -/
def Binary.leading (x : Binary) : Int :=
  let guess := (((x.significand.log2 : Int) + x.exponent) * 30103) / 100000
  let atLeast (e : Int) : Bool :=
    let g := x.grid e
    g.step ≤ 4 * x.significand * g.quarter
  if atLeast (guess + 1) then guess + 1 else if atLeast guess then guess else guess - 1

/-- A decimal without zeros at its end. -/
def stripped : Nat → Decimal → Decimal
  | 0, d => d
  | fuel + 1, d => if d.digits % 10 = 0 ∧ d.digits ≠ 0 then stripped fuel ⟨d.digits / 10, d.exponent + 1⟩ else d

/-- The shortest decimal that reads back as `x`, tried with one digit, two digits and so on. -/
def Binary.shortest (x : Binary) : Decimal :=
  let lead := x.leading
  match (List.range 17).findSome? fun (n : Nat) => x.onGrid? (lead - n) with
  | some d => d.stripped 400
  | none => ⟨x.significand, 0⟩

end Decimal

end Coordination
