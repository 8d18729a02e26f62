import Coordination.Text.Blank
import Coordination.Time

/-! # Spans of time in text

Operators write spans as numbers with units, such as `5m` or `1h 30m`, and read them in the same form. A
number may have a fraction if it stands for a whole number of nanoseconds, or of seconds from the hour on.
-/
namespace Coordination.Console.Span

inductive TimeUnit where
  | nanosecond
  | microsecond
  | millisecond
  | second
  | minute
  | hour
  | day
  | week
  | month
  | year
deriving DecidableEq, Repr

namespace TimeUnit

def names : List (TimeUnit × List String) := [
  (nanosecond, ["nanos", "nsec", "ns"]),
  (microsecond, ["usec", "us", "µs"]),
  (millisecond, ["millis", "msec", "ms"]),
  (second, ["seconds", "second", "secs", "sec", "s"]),
  (minute, ["minutes", "minute", "mins", "min", "m"]),
  (hour, ["hours", "hour", "hrs", "hr", "h"]),
  (day, ["days", "day", "d"]),
  (week, ["weeks", "week", "wks", "wk", "w"]),
  (month, ["months", "month", "M"]),
  (year, ["years", "year", "yrs", "yr", "y"])]

def ofName? (name : String) : Option TimeUnit :=
  (names.find? fun entry => entry.2.contains name).map Prod.fst

end TimeUnit

/-! ## Sizes -/

inductive Grain where
  | nanosecond
  | second
deriving DecidableEq, Repr

def Grain.nanos : Grain → Nat
  | nanosecond => 1
  | second => Duration.nanosPerSecond

structure Scale where
  grain : Grain
  size : Nat

namespace TimeUnit

/-- How whole numbers of a unit are counted. Months and years have their mean length. -/
def scale : TimeUnit → Scale
  | nanosecond => ⟨.nanosecond, 1⟩
  | microsecond => ⟨.nanosecond, 1000⟩
  | millisecond => ⟨.nanosecond, 1000000⟩
  | second => ⟨.second, 1⟩
  | minute => ⟨.second, 60⟩
  | hour => ⟨.second, 3600⟩
  | day => ⟨.second, 86400⟩
  | week => ⟨.second, 7 * 86400⟩
  | month => ⟨.second, 2630016⟩
  | year => ⟨.second, 31557600⟩

/-- How fractions of a unit are counted. A nanosecond has none, and fractions of an hour or more are whole
seconds. -/
def fractionScale? : TimeUnit → Option Scale
  | nanosecond => none
  | second => some ⟨.nanosecond, Duration.nanosPerSecond⟩
  | minute => some ⟨.nanosecond, 60 * Duration.nanosPerSecond⟩
  | u => some u.scale

end TimeUnit

/-! ## Reading -/

def numberLimit : Nat := Nat.pow 2 64 - 1

structure Fraction where
  numerator : Nat
  denominator : Nat

/-- A number as its whole part and, where it has a point, its fraction over a power of ten. -/
structure Number where
  whole : Nat
  fraction : Option Fraction

def isUnitLetter (c : Char) : Bool := c.isAlpha || c == 'µ'

def shifted? (n : Nat) (c : Char) : Option Nat :=
  let next := n * 10 + (c.toNat - '0'.toNat)
  if next ≤ numberLimit then some next else none

/-- Reads the fraction of a number up to its unit; blanks in it do not count. -/
def readFraction (f : Fraction) : List Char → Option (Fraction × List Char)
  | [] => if f.denominator = 1 then none else some (f, [])
  | c :: rest =>
    if c.isDigit then do
      let n ← shifted? f.numerator c
      if f.denominator * 10 ≤ numberLimit then readFraction ⟨n, f.denominator * 10⟩ rest else none
    else if Text.isBlank c then readFraction f rest
    else if isUnitLetter c then
      if f.denominator = 1 then none else some (f, c :: rest)
    else none

/-- Reads a number up to its unit; blanks in it do not count. -/
def readNumber (n : Nat) : List Char → Option (Number × List Char)
  | [] => some (⟨n, none⟩, [])
  | c :: rest =>
    if c.isDigit then do
      let n ← shifted? n c
      readNumber n rest
    else if Text.isBlank c then readNumber n rest
    else if isUnitLetter c then some (⟨n, none⟩, c :: rest)
    else if c = '.' then do
      let (f, rest) ← readFraction ⟨0, 1⟩ rest
      pure (⟨n, some f⟩, rest)
    else none

/-- A share of a unit in grains, if it is a whole number of them and is counted within the limit. -/
def Fraction.grains? (f : Fraction) (size : Nat) : Option Nat :=
  let product := f.numerator * size
  if product ≤ numberLimit ∧ product % f.denominator = 0 then some (product / f.denominator) else none

/-- Over one, a share is whole and only the limit can refuse it. -/
theorem Fraction.grains?_one (n size : Nat) :
    (Fraction.mk n 1).grains? size = if n * size ≤ numberLimit then some (n * size) else none := by
  simp [Fraction.grains?, Nat.mod_one]

/-- A sum of nanoseconds with a number of grains added. What the sum has below a second is counted together
with them and has to stay within the limit; so have the seconds of the new sum. -/
def extended? (grain : Grain) (sum grains : Nat) : Option Nat :=
  let total := sum + grains * grain.nanos
  if sum % Duration.nanosPerSecond / grain.nanos + grains ≤ numberLimit ∧
      total / Duration.nanosPerSecond ≤ numberLimit then some total
  else none

def plusShare? (scale : Scale) (sum : Nat) (f : Fraction) : Option Nat := do
  extended? scale.grain sum (← f.grains? scale.size)

/-- A sum of nanoseconds with a number of a unit added, first the whole part and then the fraction. -/
def plus? (u : TimeUnit) (sum : Nat) (x : Number) : Option Nat := do
  let sum ← plusShare? u.scale sum ⟨x.whole, 1⟩
  match x.fraction with
  | none => pure sum
  | some f => plusShare? (← u.fractionScale?) sum f

/-- Reads numbers with units and adds them up. The fuel is the length of the text. -/
def readTerms : Nat → Nat → List Char → Option Nat
  | 0, _, _ => none
  | fuel + 1, sum, cs =>
    match cs.dropWhile Text.isBlank with
    | [] => some sum
    | c :: rest => do
      if !c.isDigit then none
      let (x, rest) ← readNumber 0 (c :: rest)
      let u ← TimeUnit.ofName? (String.ofList (rest.takeWhile isUnitLetter))
      let rest := rest.dropWhile isUnitLetter
      let sum ← plus? u sum x
      match rest with
      | [] => some sum
      | d :: _ => if d.isDigit || Text.isBlank d then readTerms fuel sum rest else none

def parse? (text : String) : Option Duration :=
  if text = "0" then some .zero
  else if text.toList.all Text.isBlank then none
  else (readTerms (text.length + 1) 0 text.toList).map fun nanos => ⟨nanos⟩

/-! ## Writing -/

/-- A number of a unit, if there is any, and the seconds that are left. -/
def part (size seconds : Nat) (name : Nat → String) : Option String × Nat :=
  let n := seconds / size
  (if n = 0 then none else some s!"{n}{name n}", seconds % size)

def counted (name : String) (n : Nat) : String := if n = 1 then name else name ++ "s"

def ofSeconds (seconds : Nat) : String :=
  let (years, rest) := part 31557600 seconds (counted "year")
  let (months, rest) := part 2630016 rest (counted "month")
  let (days, rest) := part 86400 rest (counted "day")
  let (hours, rest) := part 3600 rest fun _ => "h"
  let (minutes, rest) := part 60 rest fun _ => "m"
  let (seconds, _) := part 1 rest fun _ => "s"
  String.intercalate " " ([years, months, days, hours, minutes, seconds].filterMap id)

/-- A duration for people, in whole seconds and at least one unless there is none. -/
def render (d : Duration) : String := if d.isZero then "none" else ofSeconds (max 1 d.seconds)

end Coordination.Console.Span
