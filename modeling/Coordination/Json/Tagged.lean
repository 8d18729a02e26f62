import Coordination.Json.Shape

/-! # Values with a tag

A tagged value is an object in which one member, wherever it stands, names the variant and the others
belong to it, or a list whose first item names the variant. The other members are kept as values until the
variant is known.
-/
namespace Coordination.Json

/-- A type of tagged values: what it is called, the name of the tag and the variants. -/
structure Tagging (α : Type) where
  title : String
  tag : String
  variants : List (String × α)

namespace Tagging

variable {α : Type}

/-- Reads members up to the closing bracket; `variant` is the tag if it has been read, and `taken` the other
members so far, last first. -/
def readMembers (t : Tagging α) :
    Nat → Bool → Option α → List (String × Value) → Reader (α × List (String × Value))
  | 0, _, _, _ => fun _ => .error .malformed
  | fuel + 1, first, variant, taken => fun cs => do
    match ← nextItem '\x7d' first cs with
    | none =>
      match variant with
      | none => .error (.mismatch (.missingField t.tag))
      | some a => do
        let (_, rest) ← mark '\x7d' cs
        pure ((a, taken.reverse), rest)
    | some cs => do
      let (name, rest) ← memberName cs
      if name = t.tag then
        if variant.isSome then .error (.mismatch (.duplicateField t.tag))
        else do
          let (_, rest) ← mark ':' rest
          let (a, rest) ← (Kind.variantName t.variants).read rest
          readMembers t fuel false (some a) taken rest
      else do
        let (_, rest) ← mark ':' rest
        let (v, rest) ← value (depthLimit - 1) rest
        readMembers t fuel false variant ((name, v) :: taken) rest

/-- Reads a tagged value: its variant and what belongs to it. -/
def read (t : Tagging α) : Reader (α × Value) := fun cs =>
  match skipSpaces cs with
  | '\x7b' :: rest => do
    let ((a, ms), rest) ← t.readMembers (rest.length + 1) true none [] rest
    pure ((a, .object ms), rest)
  | '[' :: rest => do
    match ← nextItem ']' true rest with
    | none => .error (.mismatch (.missingField t.tag))
    | some cs => do
      let (a, rest) ← (Kind.variantName t.variants).read cs
      let (vs, rest) ← itemsUpTo ']' (value (depthLimit - 1)) (rest.length + 1) false [] rest
      pure ((a, .list vs), rest)
  | rest => refuse t.title rest

end Tagging

end Coordination.Json
