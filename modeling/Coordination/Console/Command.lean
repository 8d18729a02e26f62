import Coordination.Bounds
import Coordination.Console.Arguments
import Coordination.Console.Span
import Coordination.RateLimit.Dimension
import Coordination.Text.Integer

/-! # Commands

What operators can ask the tool for, and how it is written.
-/
namespace Coordination.Console

inductive Shell where
  | bash
  | elvish
  | fish
  | powershell
  | zsh
deriving DecidableEq, Repr

def Shell.byName : List (String × Shell) :=
  [("bash", .bash), ("elvish", .elvish), ("fish", .fish), ("powershell", .powershell), ("zsh", .zsh)]

inductive Command where
  | health
  /-- Takes a lock; without an owner a token is drawn, without a lifetime the settings give one. -/
  | acquireLock (resource : String) (owner : Option String) (ttl : Option Duration)
  | releaseLock (resource owner : String)
  | checkRate (context : RateLimit.Context) (json : Bool)
  | claimKey (key : String)
  | showKey (key : String) (json : Bool)
  | throttleStatus (identifier identity : String)
  | throttleFail (identifier identity : String)
  | throttleSucceed (identifier identity : String) (remember : Bool)
  | throttleDelay (failures : Int)
  | completions (shell : Shell)
deriving Repr

namespace Command

def anyText (_ : String) : Bool := true

def isSpan (text : String) : Bool := (Span.parse? text).isSome

def failures? (text : String) : Option Int := (Text.Integer.parse (Bounds.signed 64) text).toOption

/-- A command below its name: how its arguments are written and what is made of them. -/
structure Leaf where
  grammar : Grammar
  build : Given → Option Command

def text : OptionForm := .value anyText

/-- A command that takes values without names only. -/
def Leaf.ofOperands (operands : List (String → Bool)) (build : List String → Option Command) : Leaf :=
  ⟨⟨[], operands⟩, fun given => build given.operands⟩

def healthLeaf : Leaf := .ofOperands [] fun _ => some .health

def acquireLeaf : Leaf where
  grammar := ⟨[("owner", text), ("ttl", .value isSpan)], [anyText]⟩
  build given := do
    let resource ← given.operands.head?
    some (.acquireLock resource (given.value? "owner") ((given.value? "ttl").bind Span.parse?))

def releaseLeaf : Leaf := .ofOperands [anyText, anyText] fun
  | [resource, owner] => some (.releaseLock resource owner)
  | _ => none

def rateLeaf : Leaf where
  grammar := ⟨[("fingerprint", text), ("ip", text), ("city", text), ("country", text), ("json", .flag)], []⟩
  build given := some (.checkRate {
    fingerprint := given.value? "fingerprint"
    ip := given.value? "ip"
    city := given.value? "city"
    country := given.value? "country" } (given.has "json"))

def claimLeaf : Leaf := .ofOperands [anyText] fun operands => operands.head?.map .claimKey

def showLeaf : Leaf where
  grammar := ⟨[("json", .flag)], [anyText]⟩
  build given := given.operands.head?.map fun key => .showKey key (given.has "json")

def pairLeaf (build : String → String → Command) : Leaf := .ofOperands [anyText, anyText] fun
  | [identifier, identity] => some (build identifier identity)
  | _ => none

def succeedLeaf : Leaf where
  grammar := ⟨[("remember", .flag)], [anyText, anyText]⟩
  build given :=
    match given.operands with
    | [identifier, identity] => some (.throttleSucceed identifier identity (given.has "remember"))
    | _ => none

def delayLeaf : Leaf := .ofOperands [fun text => (failures? text).isSome] fun operands =>
  (operands.head?.bind failures?).map .throttleDelay

def completionsLeaf : Leaf := .ofOperands [fun text => (Shell.byName.lookup text).isSome] fun operands =>
  (operands.head?.bind fun name => Shell.byName.lookup name).map .completions

/-- What stands at a name: a command, or a group of commands. -/
inductive Node where
  | leaf (l : Leaf)
  | group (members : List (String × Leaf))

def tree : List (String × Node) := [
  ("health", .leaf healthLeaf),
  ("lock", .group [("acquire", acquireLeaf), ("release", releaseLeaf)]),
  ("rate-limit", .group [("check", rateLeaf)]),
  ("idempotency", .group [("check", claimLeaf), ("show", showLeaf)]),
  ("throttle", .group [
    ("status", pairLeaf .throttleStatus),
    ("fail", pairLeaf .throttleFail),
    ("succeed", succeedLeaf),
    ("delay", delayLeaf)]),
  ("completions", .leaf completionsLeaf)]

def Leaf.read (l : Leaf) (arguments : List String) : Except Stop Command := do
  let given ← l.grammar.read arguments
  match l.build given with
  | some command => pure command
  | none => throw .misuse

/-- Whether an argument asks for help in place of a command. -/
def wantsHelp (argument : String) : Bool :=
  match argument.toList with
  | '-' :: 'h' :: _ => true
  | _ => argument == "--help"

/-- The names that help can be asked on in a group, which counts help itself. -/
def memberNames (members : List (String × Leaf)) : List String := "help" :: members.map Prod.fst

/-- Help on what has members with the given names, or on one of these members. -/
def helpOn (members : List String) : List String → Stop
  | [] => .help
  | [name] => if members.contains name then .help else .misuse
  | _ => .misuse

def readGroup (members : List (String × Leaf)) : List String → Except Stop Command
  | [] => .error .misuse
  | name :: rest =>
    match members.lookup name with
    | some l => l.read rest
    | none =>
      if wantsHelp name then .error .help
      else if name = "help" then .error (helpOn (memberNames members) rest)
      else .error .misuse

/-- Help on a command by its name, or by the name of its group and its own. A command that is no group has
no members, and neither has help. -/
def topHelp : List String → Stop
  | [] => .help
  | name :: rest =>
    match tree.lookup name with
    | some (.group members) => helpOn (memberNames members) rest
    | some (.leaf _) => helpOn [] rest
    | none => if name = "help" then helpOn [] rest else .misuse

/-- Whether an argument asks for the version. -/
def wantsVersion (argument : String) : Bool :=
  match argument.toList with
  | '-' :: 'V' :: _ => true
  | _ => argument == "--version"

/-- Reads the arguments of the tool. -/
def read : List String → Except Stop Command
  | [] => .error .misuse
  | name :: rest =>
    match tree.lookup name with
    | some (.leaf l) => l.read rest
    | some (.group members) => readGroup members rest
    | none =>
      if wantsHelp name then .error .help
      else if wantsVersion name then .error .version
      else if name = "help" then .error (topHelp rest)
      else .error .misuse

end Command

end Coordination.Console
