import Coordination.Text.Quoted

/-! # JSON values and what can be wrong with a text

A value as it was read, the head of a value (a scalar as a whole, a list or object by its kind), and the
faults of a text: it is malformed, it ends too early, or it is well formed and does not fit what is
expected.
-/
namespace Coordination.Json

/-- A value that was read. A number that is no integer keeps only its text. -/
inductive Value where
  | null
  | flag (b : Bool)
  | integer (n : Int)
  | decimal (text : String)
  | text (s : String)
  | list (items : List Value)
  | object (members : List (String × Value))
deriving Inhabited

/-- What a value turns out to be at its head. -/
inductive Found where
  | null
  | flag (b : Bool)
  | integer (n : Int)
  | decimal (text : String)
  | text (s : String)
  | list
  | object
deriving DecidableEq, Repr

def Value.head : Value → Found
  | .null => .null
  | .flag b => .flag b
  | .integer n => .integer n
  | .decimal t => .decimal t
  | .text s => .text s
  | .list _ => .list
  | .object _ => .object

def Found.describe : Found → String
  | .null => "null"
  | .flag true => "boolean `true`"
  | .flag false => "boolean `false`"
  | .integer n => s!"integer `{n}`"
  | .decimal t => s!"floating point `{t}`"
  | .text s => "string " ++ Text.Quoted.quote s
  | .list => "sequence"
  | .object => "map"

/-- How a well-formed value fails to fit. -/
inductive Mismatch where
  | wrongType (found : Found) (expected : String)
  | outOfRange (found : Int) (expected : String)
  | wrongLength (found : Nat) (expected : String)
  | unknownVariant (found : String) (known : List String)
  | missingField (name : String)
  | duplicateField (name : String)
deriving DecidableEq, Repr

/-- Names between backquotes: two joined by "or", more as a list after "one of". -/
def alternatives : List String → String
  | [] => "nothing"
  | [a] => s!"`{a}`"
  | [a, b] => s!"`{a}` or `{b}`"
  | names => "one of " ++ String.intercalate ", " (names.map fun a => s!"`{a}`")

def Mismatch.message : Mismatch → String
  | .wrongType found expected => s!"invalid type: {found.describe}, expected {expected}"
  | .outOfRange found expected => s!"invalid value: integer `{found}`, expected {expected}"
  | .wrongLength found expected => s!"invalid length {found}, expected {expected}"
  | .unknownVariant found known => s!"unknown variant `{found}`, expected {alternatives known}"
  | .missingField name => s!"missing field `{name}`"
  | .duplicateField name => s!"duplicate field `{name}`"

/-- Why a text cannot be read. -/
inductive Fault where
  | malformed
  | truncated
  | mismatch (cause : Mismatch)
deriving DecidableEq, Repr

def Fault.message : Fault → String
  | .malformed => "the text is malformed"
  | .truncated => "the text ends too early"
  | .mismatch cause => cause.message

end Coordination.Json
