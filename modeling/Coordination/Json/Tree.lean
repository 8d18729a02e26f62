import Coordination.Json.Scanner

/-! # Reading whole values

A value is built as it was written, names that occur twice included. Containers nest up to a limit.
-/
namespace Coordination.Json

/-- Whether another item comes before the closing bracket, and the text in front of it. A comma has to
follow every item but the last. -/
def nextItem (close : Char) (first : Bool) (cs : List Char) : Except Fault (Option (List Char)) :=
  match skipSpaces cs with
  | [] => .error .truncated
  | c :: rest =>
    if c = close then .ok none
    else if first then .ok (some (c :: rest))
    else if c = ',' then
      match skipSpaces rest with
      | [] => .error .truncated
      | d :: rest' => if d = close then .error .malformed else .ok (some (d :: rest'))
    else .error .malformed

/-- Reads items up to a closing bracket and takes the bracket. Every round takes a character, so the length
of the text is fuel enough. -/
def itemsUpTo {α : Type} (close : Char) (item : Reader α) : Nat → Bool → List α → Reader (List α)
  | 0, _, _ => fun _ => .error .malformed
  | fuel + 1, first, taken => fun cs => do
    match ← nextItem close first cs with
    | none => do
      let (_, rest) ← mark close cs
      pure (taken.reverse, rest)
    | some cs => do
      let (a, rest) ← item cs
      itemsUpTo close item fuel false (a :: taken) rest

/-- All items of a container whose opening bracket has been taken. -/
def items {α : Type} (close : Char) (item : Reader α) : Reader (List α) := fun cs =>
  itemsUpTo close item (cs.length + 1) true [] cs

/-- The name of a member, with its quotes. -/
def memberName : Reader String := fun cs => do
  let (_, rest) ← mark '"' cs
  stringRest [] rest

/-- A member of an object: its name, a colon and what the given reader takes. -/
def member {α : Type} (item : Reader α) : Reader (String × α) := do
  let name ← memberName
  mark ':'
  let a ← item
  pure (name, a)

/-- The value with a given head, a container without its contents. -/
def Found.bare : Found → Value
  | .null => .null
  | .flag b => .flag b
  | .integer n => .integer n
  | .decimal t => .decimal t
  | .text s => .text s
  | .list => .list []
  | .object => .object []

/-- Reads a value with at most `depth` containers inside each other. -/
def value : Nat → Reader Value
  | 0 => do
    match ← head with
    | .list => throw .malformed
    | .object => throw .malformed
    | found => pure found.bare
  | depth + 1 => do
    match ← head with
    | .list => do
      mark '['
      let vs ← items ']' (value depth)
      pure (.list vs)
    | .object => do
      mark '\x7b'
      let ms ← items '\x7d' (member (value depth))
      pure (.object ms)
    | found => pure found.bare

/-- The containers that a text may have inside each other, the outermost included. -/
def depthLimit : Nat := 127

end Coordination.Json
