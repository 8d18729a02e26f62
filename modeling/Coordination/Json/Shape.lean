import Coordination.Bounds
import Coordination.Json.Skip
import Coordination.Json.Tree

/-! # Typed values

A kind of value says how it is read from a text and how it is taken from a value that was read before; a
shape does the same for records with named fields. Records are objects in any order of names, or lists in
the order of the fields. Texts are read left to right: what does not fit is reported before anything wrong
that stands after it.
-/
namespace Coordination.Json

/-- A kind of value with its two ways in. -/
structure Kind (α : Type) where
  read : Reader α
  take : Value → Except Mismatch α

namespace Kind

def ofHead {α : Type} (convert : Found → Except Mismatch α) : Kind α where
  read := do
    match convert (← head) with
    | .ok a => pure a
    | .error cause => throw (.mismatch cause)
  take v := convert v.head

/-- An integer of a range; the range is called by `name`. -/
def integer (b : Bounds) (name : String) : Kind Int := ofHead fun
  | .integer n => if b.contains n then .ok n else .error (.outOfRange n name)
  | found => .error (.wrongType found name)

def natural (bits : Nat) (name : String) : Kind Nat :=
  let k := integer (Bounds.unsigned bits) name
  ⟨Int.toNat <$> k.read, fun v => Int.toNat <$> k.take v⟩

def text : Kind String := ofHead fun
  | .text s => .ok s
  | found => .error (.wrongType found "a string")

def flag : Kind Bool := ofHead fun
  | .flag b => .ok b
  | found => .error (.wrongType found "a boolean")

def optional {α : Type} (k : Kind α) : Kind (Option α) where
  read := fun cs =>
    match skipSpaces cs with
    | 'n' :: rest => do
      let (_, rest) ← word "ull".toList rest
      pure (none, rest)
    | rest => do
      let (a, rest) ← k.read rest
      pure (some a, rest)
  take
    | .null => .ok none
    | v => some <$> k.take v

def list {α : Type} (k : Kind α) : Kind (List α) where
  read := fun cs =>
    match skipSpaces cs with
    | '[' :: rest => items ']' k.read rest
    | rest => refuse "a sequence" rest
  take
    | .list vs => vs.mapM k.take
    | v => .error (.wrongType v.head "a sequence")

def named {α : Type} (known : List (String × α)) (name : String) : Except Mismatch α :=
  match known.lookup name with
  | some a => .ok a
  | none => .error (.unknownVariant name (known.map Prod.fst))

def variantName {α : Type} (known : List (String × α)) : Kind α := ofHead fun
  | .text name => named known name
  | found => .error (.wrongType found "variant identifier")

/-- A variant without contents: its name, or an object with `null` under its name. -/
def variant {α : Type} (known : List (String × α)) : Kind α where
  read := fun cs =>
    match skipSpaces cs with
    | '"' :: rest => (variantName known).read ('"' :: rest)
    | '\x7b' :: rest => do
      let (name, rest) ← memberName rest
      let a ← (named known name).mapError .mismatch
      let (_, rest) ← mark ':' rest
      match ← head rest with
      | (.null, rest) => do
        let (_, rest) ← mark '\x7d' rest
        pure (a, rest)
      | (found, _) => .error (.mismatch (.wrongType found "unit"))
    | rest => .error (unexpected rest)
  take
    | .text s => (variantName known).take (.text s)
    | v => .error (.wrongType v.head "string or map")

end Kind

/-- A field of a record type: its name, how its value is put in, and whether an object may lack it and a
list may end before it. -/
structure Slot (σ : Type) where
  name : String
  read : σ → Reader σ
  take : σ → Value → Except Mismatch σ
  optional : Bool
  trailing : Bool

namespace Slot

def ofKind {σ α : Type} (name : String) (k : Kind α) (put : σ → α → σ) (optional trailing : Bool) :
    Slot σ where
  name := name
  read s := put s <$> k.read
  take s v := put s <$> k.take v
  optional := optional
  trailing := trailing

/-- A field that has to be there. -/
def required {σ α : Type} (name : String) (k : Kind α) (put : σ → α → σ) : Slot σ :=
  ofKind name k put false false

/-- A field that an object may lack and a list may not. -/
def nullable {σ α : Type} (name : String) (k : Kind α) (put : σ → Option α → σ) : Slot σ :=
  ofKind name k.optional put true false

/-- A field that keeps its default where it is not given. -/
def defaulted {σ α : Type} (name : String) (k : Kind α) (put : σ → α → σ) : Slot σ :=
  ofKind name k put true true

end Slot

/-- A record type: what it is called in faults, its value before any field is read, and its fields. -/
structure Shape (σ : Type) where
  title : String
  start : σ
  slots : List (Slot σ)

namespace Shape

variable {σ : Type}

/-- A number of elements in words. -/
def elementCount (n : Nat) : String := if n = 1 then "1 element" else s!"{n} elements"

def tooShort (shape : Shape σ) (found : Nat) : Mismatch :=
  .wrongLength found (shape.title ++ " with " ++ elementCount shape.slots.length)

/-- The first field that an object has to have and that is not among the given names. -/
def missing? (shape : Shape σ) (names : List String) : Option Mismatch :=
  (shape.slots.find? fun slot => !slot.optional && !names.contains slot.name).map fun slot =>
    .missingField slot.name

/-! ## From a text -/

/-- Reads a list into the fields from the one with the given index on, and takes the closing bracket. -/
def readElements (shape : Shape σ) : Nat → List (Slot σ) → σ → Reader σ
  | _, [], s => do
    mark ']'
    pure s
  | index, slot :: slots, s => fun cs => do
    match ← nextItem ']' (index == 0) cs with
    | none =>
      if slot.trailing then readElements shape (index + 1) slots s cs
      else .error (.mismatch (shape.tooShort index))
    | some cs => do
      let (s, rest) ← slot.read s cs
      readElements shape (index + 1) slots s rest

/-- Reads the members of an object up to its closing bracket; `names` are the fields that were given. -/
def readMembers (shape : Shape σ) : Nat → Bool → List String → σ → Reader σ
  | 0, _, _, _ => fun _ => .error .malformed
  | fuel + 1, first, names, s => fun cs => do
    match ← nextItem '\x7d' first cs with
    | none =>
      match shape.missing? names with
      | some cause => .error (.mismatch cause)
      | none => do
        let (_, rest) ← mark '\x7d' cs
        pure (s, rest)
    | some cs => do
      let (name, rest) ← memberName cs
      match shape.slots.find? (·.name == name) with
      | none => do
        let (_, rest) ← mark ':' rest
        let (_, rest) ← skipValue rest
        readMembers shape fuel false names s rest
      | some slot =>
        if names.contains name then .error (.mismatch (.duplicateField name))
        else do
          let (_, rest) ← mark ':' rest
          let (s, rest) ← slot.read s rest
          readMembers shape fuel false (name :: names) s rest

def read (shape : Shape σ) : Reader σ := fun cs =>
  match skipSpaces cs with
  | '[' :: rest => shape.readElements 0 shape.slots shape.start rest
  | '\x7b' :: rest => shape.readMembers (rest.length + 1) true [] shape.start rest
  | rest => refuse shape.title rest

/-! ## From a value -/

def takeElements (shape : Shape σ) : Nat → List (Slot σ) → σ → List Value → Except Mismatch σ
  | _, [], s, [] => .ok s
  | index, [], _, v :: vs =>
    .error (.wrongLength (index + (v :: vs).length) (elementCount index ++ " in sequence"))
  | index, slot :: slots, s, [] =>
    if slot.trailing then takeElements shape (index + 1) slots s []
    else .error (shape.tooShort index)
  | index, slot :: slots, s, v :: vs => do
    let s ← slot.take s v
    takeElements shape (index + 1) slots s vs

def takeMembers (shape : Shape σ) : List String → σ → List (String × Value) → Except Mismatch σ
  | names, s, [] =>
    match shape.missing? names with
    | some cause => .error cause
    | none => .ok s
  | names, s, (name, v) :: rest =>
    match shape.slots.find? (·.name == name) with
    | none => takeMembers shape names s rest
    | some slot =>
      if names.contains name then .error (.duplicateField name)
      else do
        let s ← slot.take s v
        takeMembers shape (name :: names) s rest

def take (shape : Shape σ) : Value → Except Mismatch σ
  | .list vs => shape.takeElements 0 shape.slots shape.start vs
  | .object ms => shape.takeMembers [] shape.start ms
  | v => .error (.wrongType v.head shape.title)

def kind (shape : Shape σ) : Kind σ := ⟨shape.read, shape.take⟩

end Shape

end Coordination.Json
