import Coordination.Bounds
import Coordination.Program
import Coordination.SignIn.Policy
import Coordination.SignIn.Subject

/-! # Sign-in throttling

Failures of a subject are counted in a streak that begins with its first failure. Each failure past the free ones
locks the subject for a while, a success ends the streak, and a subject that is remembered as known good is not
throttled at all.
-/
namespace Coordination.SignIn

structure Rules where
  policy : Policy
  /-- The life of a streak, from its first failure on. -/
  failureTtl : Duration
  knownGoodTtl : Duration
deriving DecidableEq, Repr

def Rules.standard : Rules where
  policy := .standard
  failureTtl := .ofSeconds (24 * 60 * 60)
  knownGoodTtl := .ofSeconds (30 * 24 * 60 * 60)

inductive Standing where
  | allowed
  | locked (retryAfterSecs : Nat)
deriving DecidableEq, Repr

inductive FailureOutcome where
  /-- The subject is known good; nothing was counted. -/
  | bypassed
  | recorded (failures : Int) (delay : Duration)
deriving DecidableEq, Repr

variable {ω : Type}

def countBounds : Bounds := Bounds.signed 64

def isKnownGood (s : Subject) : Action ω Bool := do
  return (← Action.call (.get s.knownGoodKey)).isSome

def countOf (s : Subject) (text : String) : Except Failure Int :=
  match Text.Integer.parse countBounds text with
  | .ok n => .ok n
  | .error _ => .error (.internal (.countNotInteger s.identifierHash))

def failureCount (s : Subject) : Action ω Int := do
  match ← Action.call (.get s.failuresKey) with
  | none => pure 0
  | some text => Action.ofExcept (countOf s text)

/-- The seconds left of a lockout, rounded up; zero without one. -/
def lockedSeconds (s : Subject) : Action ω Int := do
  match ← Action.call (.ttlRemaining s.lockedKey) with
  | none => pure 0
  | some left => pure (countBounds.capped left.secondsCeil)

def setLocked (s : Subject) (seconds : Nat) : Action ω Unit := do
  if seconds = 0 then pure ()
  else Action.call (.set s.lockedKey (toString seconds) (some (.ofSeconds seconds)))

def clear (s : Subject) : Action ω Unit := do
  let _ ← Action.call (.delete s.failuresKey)
  let _ ← Action.call (.delete s.lockedKey)
  pure ()

def check (s : Subject) : Action ω Standing := do
  if ← isKnownGood s then pure .allowed
  else
    let seconds ← lockedSeconds s
    if 0 < seconds then pure (.locked seconds.natAbs) else pure .allowed

namespace Rules

def incrementFailures (rules : Rules) (s : Subject) : Action ω Int :=
  Action.call (.increment s.failuresKey 1 (some rules.failureTtl))

def markKnownGood (rules : Rules) (s : Subject) : Action ω Unit :=
  Action.call (.set s.knownGoodKey "1" (some rules.knownGoodTtl))

/-- Counts a failure and locks the subject for the delay that the new count brings, in whole seconds rounded
up. -/
def recordFailure (rules : Rules) (s : Subject) : Action ω FailureOutcome := do
  if ← isKnownGood s then pure .bypassed
  else
    let failures ← rules.incrementFailures s
    let delay := rules.policy.delayFor failures
    if delay.isZero then pure (.recorded failures delay)
    else
      setLocked s delay.secondsCeil
      pure (.recorded failures delay)

/-- Ends the streak, and remembers the subject if asked to. -/
def recordSuccess (rules : Rules) (s : Subject) (remember : Bool) : Action ω Unit := do
  clear s
  if remember then rules.markKnownGood s

end Rules

end Coordination.SignIn
