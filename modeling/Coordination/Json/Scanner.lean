import Coordination.Json.Number
import Coordination.Json.Value

/-! # Reading scalars

A reader takes what it reads off the front of the text. Blanks before a value are passed over. A scalar is
read as a whole; at a container the reader stops in front of the bracket, so that its kind can be
reported before its contents are looked at.
-/
namespace Coordination.Json

/-- Takes a value off the front of a text, or tells what is wrong with the text. -/
abbrev Reader (α : Type) := StateT (List Char) (Except Fault) α

def isSpace (c : Char) : Bool := c == ' ' || c == '\n' || c == '\t' || c == '\r'

def skipSpaces (cs : List Char) : List Char := cs.dropWhile isSpace

/-- The fault of meeting something else than what is due: the end of the text, or a wrong character. -/
def unexpected : List Char → Fault
  | [] => .truncated
  | _ :: _ => .malformed

def word : List Char → Reader Unit
  | [], cs => .ok ((), cs)
  | w :: ws, c :: cs => if w = c then word ws cs else .error .malformed
  | _ :: _, [] => .error .truncated

def mark (c : Char) : Reader Unit := fun cs =>
  match skipSpaces cs with
  | d :: rest => if c = d then .ok ((), rest) else .error .malformed
  | [] => .error .truncated

/-! ## Strings -/

def hexValue? (c : Char) : Option Nat :=
  if c.isDigit then some (c.toNat - '0'.toNat)
  else if 'a' ≤ c ∧ c ≤ 'f' then some (c.toNat - 'a'.toNat + 10)
  else if 'A' ≤ c ∧ c ≤ 'F' then some (c.toNat - 'A'.toNat + 10)
  else none

def hexValue4? (a b c d : Char) : Option Nat := do
  pure ((((← hexValue? a) * 16 + (← hexValue? b)) * 16 + (← hexValue? c)) * 16 + (← hexValue? d))

/-- The fault of an escape that has fewer than four characters left: the text has ended only if it also has
fewer than four bytes left. -/
def shortEscape (cs : List Char) : Fault :=
  if (String.ofList cs).utf8ByteSize < 4 then .truncated else .malformed

def isHighSurrogate (n : Nat) : Bool := 0xD800 ≤ n && n ≤ 0xDBFF

def isLowSurrogate (n : Nat) : Bool := 0xDC00 ≤ n && n ≤ 0xDFFF

def surrogatePair (high low : Nat) : Char := Char.ofNat (0x10000 + (high - 0xD800) * 0x400 + (low - 0xDC00))

def escaped? (c : Char) : Option Char :=
  if c = '"' ∨ c = '\\' ∨ c = '/' then some c
  else if c = 'b' then some '\x08'
  else if c = 'f' then some '\x0c'
  else if c = 'n' then some '\n'
  else if c = 'r' then some '\r'
  else if c = 't' then some '\t'
  else none

/-- Reads the rest of a string whose opening quote has been taken; `taken` holds its characters so far, last
first. -/
def stringRest (taken : List Char) : Reader String
  | [] => .error .truncated
  | '\\' :: 'u' :: a :: b :: c :: d :: rest =>
    match hexValue4? a b c d with
    | none => .error .malformed
    | some n =>
      if isLowSurrogate n then .error .malformed
      else if isHighSurrogate n then
        match rest with
        | '\\' :: 'u' :: e :: f :: g :: h :: rest =>
          match hexValue4? e f g h with
          | none => .error .malformed
          | some m =>
            if isLowSurrogate m then stringRest (surrogatePair n m :: taken) rest else .error .malformed
        | '\\' :: 'u' :: short => .error (shortEscape short)
        | ['\\'] => .error .truncated
        | rest => .error (unexpected rest)
      else stringRest (Char.ofNat n :: taken) rest
  | '\\' :: 'u' :: short => .error (shortEscape short)
  | ['\\'] => .error .truncated
  | '\\' :: e :: rest =>
    match escaped? e with
    | none => .error .malformed
    | some c => stringRest (c :: taken) rest
  | c :: rest =>
    if c = '"' then .ok (String.ofList taken.reverse, rest)
    else if c.toNat < 0x20 then .error .malformed
    else stringRest (c :: taken) rest

/-! ## Numbers -/

def significandLimit : Nat := Nat.pow 2 64 - 1

/-- Takes digits into a significand while it stays within its limit, and leaves the others. -/
def absorb : Nat → List Char → Nat × List Char
  | n, [] => (n, [])
  | n, c :: cs =>
    let next := n * 10 + (c.toNat - '0'.toNat)
    if next ≤ significandLimit then absorb next cs else (n, c :: cs)

def digitRun (cs : List Char) : List Char × List Char := (cs.takeWhile Char.isDigit, cs.dropWhile Char.isDigit)

/-- The double `significand * 10 ^ exponent` as a number that is no integer. -/
def decimalFound (negative : Bool) (significand : Nat) (exponent : Int) : Except Fault Found :=
  match Number.magnitude? significand exponent with
  | some f => .ok (.decimal (Number.text negative f.toBits))
  | none => .error .malformed

def exponentLimit : Nat := Nat.pow 2 31 - 1

def naturalOf (digits : List Char) : Nat := digits.foldl (fun n c => n * 10 + (c.toNat - '0'.toNat)) 0

/-- What follows the letter of an exponent, after a significand with an exponent of its own. -/
def exponentRest (negative : Bool) (significand : Nat) (exponent : Int) : Reader Found := fun cs =>
  let (below, cs) := match cs with
    | '+' :: rest => (false, rest)
    | '-' :: rest => (true, rest)
    | rest => (false, rest)
  let (digits, rest) := digitRun cs
  if digits.isEmpty then .error (unexpected rest)
  else
    let power := naturalOf digits
    if power ≤ exponentLimit then do
      let found ← decimalFound negative significand (if below then exponent - power else exponent + power)
      pure (found, rest)
    else if significand ≠ 0 ∧ !below then .error .malformed
    else .ok (.decimal (if negative then "-0.0" else "0.0"), rest)

def fractionRest (negative : Bool) (significand : Nat) (exponent : Int) : Reader Found := fun cs =>
  let (digits, rest) := digitRun cs
  if digits.isEmpty then .error (unexpected rest)
  else
    let (significand, unused) := absorb significand digits
    let exponent := exponent - (digits.length - unused.length : Nat)
    match rest with
    | c :: rest' =>
      if c = 'e' ∨ c = 'E' then exponentRest negative significand exponent rest'
      else do pure (← decimalFound negative significand exponent, rest)
    | [] => do pure (← decimalFound negative significand exponent, [])

/-- An integer as far as it is one: minus zero and numbers outside 64 bits are not. -/
def integerFound (negative : Bool) (significand : Nat) : Except Fault Found :=
  if !negative then .ok (.integer significand)
  else if significand = 0 ∨ Nat.pow 2 63 < significand then decimalFound true significand 0
  else .ok (.integer (-significand))

def number (negative : Bool) : Reader Found := fun cs =>
  let (digits, rest) := digitRun cs
  match digits with
  | [] => .error (unexpected rest)
  | '0' :: _ :: _ => .error .malformed
  | digits =>
    let (significand, unused) := absorb 0 digits
    let plain : Except Fault Found :=
      if unused.isEmpty then integerFound negative significand
      else decimalFound negative significand unused.length
    match rest with
    | c :: rest' =>
      if c = '.' then fractionRest negative significand unused.length rest'
      else if c = 'e' ∨ c = 'E' then exponentRest negative significand unused.length rest'
      else do pure (← plain, rest)
    | [] => do pure (← plain, [])

/-! ## Heads -/

/-- Reads a scalar, or finds out which container comes next. -/
def head : Reader Found := fun cs =>
  match skipSpaces cs with
  | [] => .error .truncated
  | c :: rest =>
    if c = '"' then do let (s, rest) ← stringRest [] rest; pure (.text s, rest)
    else if c = '[' then .ok (.list, c :: rest)
    else if c = '\x7b' then .ok (.object, c :: rest)
    else if c = 'n' then do let (_, rest) ← word "ull".toList rest; pure (.null, rest)
    else if c = 't' then do let (_, rest) ← word "rue".toList rest; pure (.flag true, rest)
    else if c = 'f' then do let (_, rest) ← word "alse".toList rest; pure (.flag false, rest)
    else if c = '-' then number true rest
    else if c.isDigit then number false (c :: rest)
    else .error .malformed

/-- Reads a value that has to be of another type than what is found. -/
def refuse {α : Type} (expected : String) : Reader α := do
  let found ← head
  throw (.mismatch (.wrongType found expected))

def Reader.whole {α : Type} (r : Reader α) (text : String) : Except Fault α :=
  match r text.toList with
  | .error e => .error e
  | .ok (a, rest) => if (skipSpaces rest).isEmpty then .ok a else .error .malformed

end Coordination.Json
