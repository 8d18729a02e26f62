import Coordination.Decimal.Shortest

/-! # Numbers that are no integers

A number with a fraction, an exponent or too many digits stands for the nearest double. It is kept as the
shortest text that reads back as that double, always with a point or an exponent.
-/
namespace Coordination.Json.Number
open Decimal (Binary)

/-- The exponents of a first digit that are written without an exponent. -/
def positional (lead : Int) : Bool := -5 ≤ lead && lead ≤ 15

/-- A decimal in text: plain near one, else with one digit before the point and an exponent that always
has its sign. -/
def decimalText (d : Decimal) : String :=
  let digits := toString d.digits
  let lead := d.exponent + digits.length - 1
  if positional lead then
    if 0 ≤ d.exponent then digits ++ String.ofList (List.replicate d.exponent.toNat '0') ++ ".0"
    else if 0 ≤ lead then
      let whole := (lead + 1).toNat
      s!"{digits.take whole}.{digits.drop whole}"
    else "0." ++ String.ofList (List.replicate (-lead - 1).toNat '0') ++ digits
  else
    let fraction := if digits.length ≤ 1 then "" else s!".{digits.drop 1}"
    let sign := if lead < 0 then "-" else "+"
    s!"{digits.take 1}{fraction}e{sign}{lead.natAbs}"

/-- A finite double in text. -/
def text (negative : Bool) (bits : UInt64) : String :=
  let magnitude := bits &&& 0x7FFFFFFFFFFFFFFF
  let body := if magnitude = 0 then "0.0" else decimalText (Binary.ofBits magnitude).shortest
  if negative then "-" ++ body else body

/-- The powers of ten that are doubles, each rounded to nearest. -/
def tenTo (e : Nat) : Float := Float.ofScientific 1 false e

/-- Divides by ten up to `e` times over, never by more than `10 ^ 308` at once. -/
def dividedByTens : Nat → Float → Nat → Float
  | 0, f, _ => f
  | fuel + 1, f, e => if e ≤ 308 then f / tenTo e else dividedByTens fuel (f / tenTo 308) (e - 308)

/-- The double for `significand * 10 ^ exponent`, or none if it is too large. A nonzero significand is
rounded first, then the product or quotient. -/
def magnitude? (significand : Nat) (exponent : Int) : Option Float :=
  let f := significand.toUInt64.toFloat
  if 0 ≤ exponent then
    if exponent ≤ 308 then
      let product := f * tenTo exponent.toNat
      if product.isInf then none else some product
    else if significand = 0 then some f else none
  else if significand = 0 then some f
  else some (dividedByTens 8 f (min exponent.natAbs 2000))

end Coordination.Json.Number
