/-! # Arguments

A command says which options and how many values it takes, and arguments are read by that from left to right. The
first that does not fit stops the reading, and so does a wish for help.
-/
namespace Coordination.Console

/-- Why no command comes of arguments. -/
inductive Stop where
  | misuse
  | help
  | version
deriving DecidableEq, Repr

/-- What an option takes: nothing, or a value that passes a test. -/
inductive OptionForm where
  | flag
  | value (isValid : String → Bool)

/-- The options of a command by name, and the tests of the values that it takes without a name. -/
structure Grammar where
  options : List (String × OptionForm)
  operands : List (String → Bool)

/-- What was given: flags, values of options and values without a name, the latter in order. -/
structure Given where
  flags : List String
  values : List (String × String)
  operands : List String
deriving DecidableEq, Repr

namespace Given

def empty : Given := ⟨[], [], []⟩

def has (g : Given) (name : String) : Bool := g.flags.contains name || (g.values.lookup name).isSome

def value? (g : Given) (name : String) : Option String := g.values.lookup name

end Given

/-- A name and the value that an equals sign attaches to it. -/
def attached (cs : List Char) : String × Option String :=
  match cs.dropWhile (· != '=') with
  | _ :: value => (String.ofList (cs.takeWhile (· != '=')), some (String.ofList value))
  | [] => (String.ofList cs, none)

/-- Whether an argument looks like an option where a value is due. -/
def looksLikeOption (argument : String) : Bool :=
  match argument.toList with
  | '-' :: _ :: _ => true
  | _ => false

namespace Grammar

def addOperand (g : Grammar) (given : Given) (argument : String) : Except Stop Given :=
  match g.operands[given.operands.length]? with
  | some isValid =>
    if isValid argument then .ok { given with operands := given.operands ++ [argument] } else .error .misuse
  | none => .error .misuse

def addFlag (given : Given) (name : String) : Except Stop Given :=
  if given.has name then .error .misuse else .ok { given with flags := given.flags ++ [name] }

def addValue (given : Given) (name : String) (isValid : String → Bool) (value : String) : Except Stop Given :=
  if given.has name || !isValid value then .error .misuse
  else .ok { given with values := given.values ++ [(name, value)] }

/-- Reads arguments after what has been given. After two dashes everything is a value. -/
def readFrom (g : Grammar) (given : Given) : List String → Except Stop Given
  | [] => .ok given
  | argument :: rest =>
    match argument.toList with
    | ['-', '-'] => rest.foldlM g.addOperand given
    | '-' :: '-' :: body =>
      match attached body with
      | ("help", none) => .error .help
      | (name, attachedValue) =>
        match g.options.lookup name, attachedValue, rest with
        | some .flag, none, rest => do
          let given ← addFlag given name
          g.readFrom given rest
        | some (.value isValid), some value, rest => do
          let given ← addValue given name isValid value
          g.readFrom given rest
        | some (.value isValid), none, value :: rest =>
          if looksLikeOption value then .error .misuse
          else do
            let given ← addValue given name isValid value
            g.readFrom given rest
        | _, _, _ => .error .misuse
    | '-' :: 'h' :: _ => .error .help
    | '-' :: _ :: _ => .error .misuse
    | _ => do
      let given ← g.addOperand given argument
      g.readFrom given rest

/-- Reads all arguments of a command; every value without a name has to be given. -/
def read (g : Grammar) (arguments : List String) : Except Stop Given := do
  let given ← g.readFrom .empty arguments
  if given.operands.length = g.operands.length then pure given else throw .misuse

end Grammar

end Coordination.Console
