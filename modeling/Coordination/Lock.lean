import Coordination.Program

/-! # Locks

A lock on a resource is one key that holds its owner's token. It is taken by writing the key where it is
absent, always with a lifetime, and given back by deleting it only while the owner's token is still there, so an
owner whose time has run out cannot take the lock from the next one.
-/
namespace Coordination.Lock

variable {ω α : Type}

/-- The key of the lock on a resource. -/
def key (resource : String) : String := "lock:" ++ resource

def checkArguments (owner : String) (ttl : Duration) : Except Failure Unit :=
  if ttl.isZero then .error (.invalidArgument .zeroLockTtl)
  else if owner.isEmpty then .error (.invalidArgument .emptyOwner)
  else .ok ()

/-- Tries once to take the lock; answers whether it was free. -/
def acquire (key owner : String) (ttl : Duration) : Action ω Bool := do
  Action.ofExcept (checkArguments owner ttl)
  Action.call (.setIfAbsent key owner ttl)

/-- Gives the lock back; answers whether the owner still held it. -/
def release (key owner : String) : Action ω Bool := Action.call (.compareAndDelete key owner)

/-- Runs work while holding the lock on a resource, or nothing if another owner holds it. The lock is given back
whatever the work answers; if that fails the lock is left to expire. -/
def runExclusive (resource : String) (ttl : Duration) (work : Program ω α) : Action ω (Option α) := do
  let owner ← Action.token
  if ← acquire (key resource) owner ttl then
    let output ← Action.perform work
    let _ ← Action.outcome (release (key resource) owner)
    pure (some output)
  else
    pure none

end Coordination.Lock
