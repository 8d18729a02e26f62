import Coordination.Http.Layer
import Coordination.Store.Memory

/-! # Steps of a rehearsal

A rehearsal plays the services against a store in memory whose clock moves only when it is told to. Its steps are
raw store requests, operations of the services, and changes of the conditions: time passes, scripted replies stand in
for the store, or the store is out of reach. Some steps have steps of their own.
-/
namespace Coordination.Rehearsal

/-- Replies that stand in for the store's; the last one may go on for ever. -/
structure Script where
  operation : Store.Operation
  replies : List (Except Failure operation.Reply)
  forever : Bool

inductive SignInAct where
  | check
  | fail
  | succeed (remember : Bool)
  | isKnownGood
  | incrementFailures
  | failureCount
  | lockedSeconds
  | setLocked (seconds : Nat)
  | clear
  | markKnownGood
deriving DecidableEq, Repr

inductive Step where
  | store (r : Store.Request)
  | fill (stem : String) (count : Nat) (value : String) (ttl : Option Duration)
  | advance (d : Duration)
  | health
  | isEmpty
  | script (s : Script)
  /-- From now on every request fails with the message; without one the store is back. -/
  | outage (message : Option String)
  | rounds (times : Nat) (steps : List Step)
  | acquireLock (key owner : String) (ttl : Duration)
  | releaseLock (key owner : String)
  | runExclusive (resource : String) (ttl : Duration) (steps : List Step)
  /-- Counts a request at a wall time, or now. -/
  | checkRate (context : RateLimit.Context) (nowMs : Option Int)
  | claim (key : String)
  | inspect (key : String)
  | release (ticket : Nat)
  | complete (key : String) (response : Idempotency.CachedResponse)
  | signIn (subject : SignIn.Subject) (act : SignInAct)
  | policyDelay (failures : Int)
  /-- Sends a request through layers to a handler that runs steps and then answers. -/
  | http (layers : List Http.Layer) (request : Http.Request) (answer : Http.Response) (steps : List Step)

/-- A request that reached the store, and what came of it. -/
structure Call where
  request : Store.Request
  outcome : Except Failure request.Reply

mutual
inductive Report where
  | nothing
  | flag (b : Bool)
  | text (s : Option String)
  | count (n : Int)
  | span (d : Option Duration)
  | lockAcquired (b : Bool)
  | lockReleased (b : Bool)
  /-- The lines of the work, if it was run. -/
  | exclusive (ran : Option (List Line))
  | lastRound (lines : List Line)
  | decision (d : RateLimit.Decision)
  | claimed (key : String) (ticket : Nat)
  | inFlight
  | cached (response : Idempotency.CachedResponse)
  | noRecord
  | ticketReleased (key : String) (released : Bool)
  | noTicket
  | completion (c : Idempotency.Completion)
  | standing (s : SignIn.Standing)
  | failure (outcome : SignIn.FailureOutcome)
  | response (r : Http.Response) (handlerRuns : Nat) (lines : List Line)
  | failed (f : Failure)
  | crashed (c : Store.Crash)

/-- What a step came to, the store's calls that were its own, and the number of live keys after it. -/
inductive Line where
  | mk (report : Report) (calls : List Call) (size : Nat)
end

instance : Inhabited Report := ⟨.nothing⟩

end Coordination.Rehearsal
