import Coordination.Rehearsal.Step

/-! # The stage of a rehearsal

The conditions under which programs run: the store in memory with its clock, scripted replies and outages, and the
record of calls. Programs that ask for a token get one from a counter, and the wall clock stands at the epoch.
-/
namespace Coordination.Rehearsal
open Store

structure Stage where
  services : Services
  memory : Memory
  now : Instant
  outage : Option String
  scripts : List Script
  tokens : Nat
  tickets : List Idempotency.Ticket
  /-- Whether a program may have read the wall clock. -/
  clockRead : Bool
  /-- The calls of the step that is being played, last first. -/
  calls : List Call
  history : List Call

namespace Stage

def initial (services : Services) : Stage where
  services := services
  memory := .empty
  now := ⟨0⟩
  outage := none
  scripts := []
  tokens := 0
  tickets := []
  clockRead := false
  calls := []
  history := []

end Stage

/-- A part of a rehearsal: it changes the stage and may crash. -/
abbrev Play := ExceptT Crash (StateM Stage)

def hexPadded (width n : Nat) : String :=
  let digits := Nat.toDigits 16 n
  String.ofList (List.replicate (width - digits.length) '0' ++ digits)

/-- The token with a number, in the form of a random identifier. -/
def tokenOf (n : Nat) : String := s!"5ea1ed00-ca57-4a11-b0a7-{hexPadded 12 n}"

def wallClock : Int := 0

/-- The next scripted reply for an operation, and the scripts that are left. -/
def nextReply? (op : Operation) : List Script → Option (Except Failure op.Reply × List Script)
  | [] => none
  | s :: rest =>
    if h : s.operation = op then
      match s.replies with
      | [] => none
      | [last] => some (h ▸ last, if s.forever then s :: rest else rest)
      | reply :: replies => some (h ▸ reply, { s with replies := replies } :: rest)
    else (nextReply? op rest).map fun (reply, rest) => (reply, s :: rest)

def installScript (s : Script) (scripts : List Script) : List Script :=
  s :: scripts.filter fun t => t.operation != s.operation

/-- Whether a key is a block marker, whose value is a wall time. -/
def isBlockMarker (key : String) : Bool := "blocked:".toList.isPrefixOf key.toList

/-- What stands for a wall time that differs from run to run. -/
def hiddenTime : String := "<now>"

def Call.withoutTimes : Call → Call
  | ⟨.set key value ttl, outcome⟩ =>
    if isBlockMarker key then ⟨.set key hiddenTime ttl, outcome⟩ else ⟨.set key value ttl, outcome⟩
  | ⟨.get key, .ok (some s)⟩ =>
    if isBlockMarker key then ⟨.get key, .ok (some hiddenTime)⟩ else ⟨.get key, .ok (some s)⟩
  | call => call

/-- Serves a request by an outage, a script or the memory, in this order, without recording it. -/
def serve (r : Request) : Play (Except Failure r.Reply) := do
  let stage ← get
  match stage.outage with
  | some message => pure (.error (.unavailable (.reported message)))
  | none =>
    match nextReply? r.operation stage.scripts with
    | some (reply, scripts) => do
      set { stage with scripts := scripts }
      pure reply
    | none => do
      let (result, memory) := stage.memory.serve stage.now r
      set { stage with memory := memory }
      ExceptT.mk (pure result)

def record (call : Call) : Play Call := do
  let stage ← get
  let shown := if stage.clockRead then call.withoutTimes else call
  set { stage with calls := shown :: stage.calls, history := shown :: stage.history }
  pure shown

/-- Serves a request and records it, unless it crashes. -/
def request (r : Request) : Play (Except Failure r.Reply) := do
  let outcome ← serve r
  let _ ← record ⟨r, outcome⟩
  pure outcome

def drawToken : Play String := do
  let stage ← get
  set { stage with tokens := stage.tokens + 1 }
  pure (tokenOf stage.tokens)

/-- Answers the questions of a program whose work is the given play. -/
def answerWith {ω : Type} (work : Play ω) : (q : Ask) → Play (q.Answer ω)
  | .store r => request r
  | .token => drawToken
  | .clock => pure wallClock
  | .work => work

end Coordination.Rehearsal
