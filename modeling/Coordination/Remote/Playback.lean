import Coordination.Remote.Client

/-! # A server that plays back

A server with prepared answers: each command takes the next one, whatever it asks for. It records the commands that
reach it, greetings apart, which it takes as they come. A server that does not listen refuses every connection.
-/
namespace Coordination.Remote

inductive Cue where
  | reply (r : Reply)
  /-- Drops the connection. -/
  | close
  /-- Never answers. -/
  | hang

structure Playback where
  isListening : Bool
  cues : List Cue
  /-- The commands that were received, last first. -/
  received : List Command

namespace Playback

/-- A server that listens with answers to give. -/
def listening (cues : List Cue) : Playback := ⟨true, cues, []⟩

/-- An address where no server listens. -/
def absent : Playback := ⟨false, [], []⟩

def Cue.arrival : Cue → Arrival
  | .reply r => .reply r
  | .close => .dropped
  | .hang => .silence

/-- Answers a signal. A server that has run out of answers sends an error. -/
def answer (s : Signal) : StateM Playback Arrival := do
  let server ← get
  if !server.isListening then pure .dropped
  else
    match s with
    | .greeting _ _ => pure (.reply (.status "OK"))
    | .command c =>
      match server.cues with
      | [] => do
        set { server with received := c :: server.received }
        pure (.reply (.error "ERR no answer is prepared"))
      | cue :: cues => do
        set { server with received := c :: server.received, cues := cues }
        pure (Cue.arrival cue)

def hold {α : Type} (e : Exchange α) : StateM Playback α := e.hold answer

/-- The commands in the order in which they came. -/
def commands (server : Playback) : List Command := server.received.reverse

end Playback

end Coordination.Remote
