import Coordination.Json.Scanner

/-! # Passing over a value

A value under an unknown name is passed over without being built. Its brackets are kept on a stack, so
there is no limit to their depth; numbers are not evaluated, and escapes need not stand for characters.
-/
namespace Coordination.Json

def skipStringRest : Reader Unit
  | [] => .error .truncated
  | '\\' :: 'u' :: a :: b :: c :: d :: rest =>
    if (hexValue4? a b c d).isSome then skipStringRest rest else .error .malformed
  | '\\' :: 'u' :: short => .error (shortEscape short)
  | ['\\'] => .error .truncated
  | '\\' :: e :: rest => if (escaped? e).isSome then skipStringRest rest else .error .malformed
  | c :: rest =>
    if c = '"' then .ok ((), rest)
    else if c.toNat < 0x20 then .error .malformed
    else skipStringRest rest

/-- Passes over at least one digit. -/
def skipDigits : Reader Unit := fun cs =>
  if (digitRun cs).1.isEmpty then .error .malformed else .ok ((), (digitRun cs).2)

def skipExponentRest : Reader Unit
  | '+' :: rest => skipDigits rest
  | '-' :: rest => skipDigits rest
  | rest => skipDigits rest

def skipFractionRest : Reader Unit := fun cs => do
  let (_, rest) ← skipDigits cs
  match rest with
  | 'e' :: rest' => skipExponentRest rest'
  | 'E' :: rest' => skipExponentRest rest'
  | rest => pure ((), rest)

def skipNumber : Reader Unit := fun cs =>
  match digitRun cs with
  | ([], _) => .error .malformed
  | ('0' :: _ :: _, _) => .error .malformed
  | (_, '.' :: rest) => skipFractionRest rest
  | (_, 'e' :: rest) => skipExponentRest rest
  | (_, 'E' :: rest) => skipExponentRest rest
  | (_, rest) => .ok ((), rest)

/-- What a walk over nested containers waits for. -/
inductive Due where
  | value
  | afterOpening
  | afterItem

/-- The closing bracket of an opening one. -/
def closing (bracket : Char) : Char := if bracket = '[' then ']' else '\x7d'

/-- The start of an item in a container: a member needs its name first. -/
def skipName (bracket : Char) : Reader Unit := fun cs =>
  if bracket = '[' then .ok ((), cs)
  else do
    let (_, cs) ← mark '"' cs
    let (_, cs) ← skipStringRest cs
    mark ':' cs

/-- Walks over a value inside the containers on the stack, innermost first. Every two steps take a
character at least, so a fuel of twice the length of the text never runs out. -/
def skipNested : Nat → Due → List Char → Reader Unit
  | 0, _, _ => fun _ => .error .malformed
  | fuel + 1, .value, stack => fun cs =>
    let finish (rest : List Char) : Except Fault (Unit × List Char) :=
      if stack.isEmpty then .ok ((), rest) else skipNested fuel .afterItem stack rest
    match skipSpaces cs with
    | [] => .error .truncated
    | c :: rest =>
      if c = '[' ∨ c = '\x7b' then skipNested fuel .afterOpening (c :: stack) rest
      else if c = '"' then do finish (← skipStringRest rest).2
      else if c = 'n' then do finish (← word "ull".toList rest).2
      else if c = 't' then do finish (← word "rue".toList rest).2
      else if c = 'f' then do finish (← word "alse".toList rest).2
      else if c = '-' then do finish (← skipNumber rest).2
      else if c.isDigit then do finish (← skipNumber (c :: rest)).2
      else .error .malformed
  | _ + 1, _, [] => fun cs => .ok ((), cs)
  | fuel + 1, due, bracket :: stack => fun cs =>
    match skipSpaces cs with
    | [] => .error .truncated
    | c :: rest =>
      if c = closing bracket then
        if stack.isEmpty then .ok ((), rest) else skipNested fuel .afterItem stack rest
      else
        match due, c with
        | .afterItem, ',' => do
          let (_, rest) ← skipName bracket rest
          skipNested fuel .value (bracket :: stack) rest
        | .afterItem, _ => .error .malformed
        | _, _ => do
          let (_, rest) ← skipName bracket (c :: rest)
          skipNested fuel .value (bracket :: stack) rest

/-- Passes over one value. -/
def skipValue : Reader Unit := fun cs => skipNested (2 * cs.length + 2) .value [] cs

end Coordination.Json
