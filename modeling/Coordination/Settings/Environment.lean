import Coordination.Settings.Table

/-! # Settings from the environment

Variables whose names begin with the prefix are settings, in any case of letters; names that are no setting are
passed over. Variables are read in their order, and the first that cannot be read decides the failure.
-/
namespace Coordination.Settings

/-- What follows every repetition of `lead` at the front; the fuel is the length of the text. -/
def dropRepeated (lead : List Char) : Nat → List Char → List Char
  | 0, cs => cs
  | fuel + 1, cs => if lead.isPrefixOf cs then dropRepeated lead fuel (cs.drop lead.length) else cs

/-- The name of a variable without the prefix, however often it is repeated, if it begins with it. -/
def bareName? (name : String) : Option String :=
  let cs := name.toList
  let lead := variablePrefix.toList
  if lead.isPrefixOf cs then some (String.ofList (dropRepeated lead cs.length cs)) else none

/-- The lower case of a character as far as it is an ASCII letter. Besides the letters themselves only the
Kelvin sign has one. -/
def lowerLetter (c : Char) : Char := if c = '\u212a' then 'k' else c.toLower

def lowerName (name : String) : String := String.ofList (name.toList.map lowerLetter)

/-- The parts between commas; an empty text has none. -/
def commaList (text : String) : List String := if text.isEmpty then [] else text.splitOn ","

/-- Puts the text of a variable into a setting. -/
def Content.parse (c : Content) (name text : String) (s : Settings) : Except Failure Settings :=
  match c with
  | .text _ put => .ok (put s text)
  | .list _ put => .ok (put s (commaList text))
  | .number word _ put =>
    match Text.Integer.parse (Bounds.unsigned word.bits) text with
    | .ok n => .ok (put s n.toNat)
    | .error fault => .error (.configuration (.number fault text name))

def entry? (name : String) : Option Entry := table.find? (·.name == name)

/-- Reads variables in order; `given` are the settings that were read. -/
def readVariables (given : List String) (s : Settings) :
    List (String × String) → Except Failure (List String × Settings)
  | [] => .ok (given, s)
  | (name, text) :: rest =>
    match bareName? name with
    | none => readVariables given s rest
    | some bare =>
      match entry? (lowerName bare) with
      | none => readVariables given s rest
      | some e =>
        if given.contains e.name then .error (.configuration (.duplicate e.name))
        else do
          let s ← e.content.parse bare text s
          readVariables (e.name :: given) s rest

/-- The settings of a list of variables, checked. -/
def ofVariables (environment : List (String × String)) : Except Failure Settings := do
  let (given, s) ← readVariables [] (standard "") environment
  match table.find? fun e => e.isRequired && !given.contains e.name with
  | some e => .error (.configuration (.missing e.name))
  | none => do
    s.validate
    pure s

end Coordination.Settings
