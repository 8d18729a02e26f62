import Coordination.Proofs.Pool.Requests
import Coordination.Proofs.SignIn.Course

/-! # What a throttle sends

A throttle is asked to do ten things. Whichever it is, it sends a few requests only, all of them for the three records of
the subject, and what it writes has a lifetime.
-/
namespace Coordination.SignIn
open Store (countRequest)
open Coordination.Action (Strict strict_bind strict_call strict_pure strict_ofExcept)

/-- All that a throttle can be asked to do; throttles with different rules may share a store. -/
inductive Call where
  | isKnownGood (s : Subject)
  | failureCount (s : Subject)
  | lockedSeconds (s : Subject)
  | setLocked (s : Subject) (seconds : Nat)
  | clear (s : Subject)
  | check (s : Subject)
  | incrementFailures (rules : Rules) (s : Subject)
  | markKnownGood (rules : Rules) (s : Subject)
  | recordFailure (rules : Rules) (s : Subject)
  | recordSuccess (rules : Rules) (s : Subject) (remember : Bool)

inductive Result where
  | known (isKnown : Bool)
  | number (n : Int)
  | finished
  | stands (standing : Standing)
  | failed (outcome : FailureOutcome)
deriving DecidableEq, Repr

namespace Call

def subject : Call → Subject
  | .isKnownGood s | .failureCount s | .lockedSeconds s | .setLocked s _ | .clear s | .check s | .incrementFailures _ s
  | .markKnownGood _ s | .recordFailure _ s | .recordSuccess _ s _ => s

variable {ω : Type}

def action : Call → Action ω Result
  | .isKnownGood s => do return .known (← SignIn.isKnownGood s)
  | .failureCount s => do return .number (← SignIn.failureCount s)
  | .lockedSeconds s => do return .number (← SignIn.lockedSeconds s)
  | .setLocked s seconds => do
    SignIn.setLocked s seconds
    return .finished
  | .clear s => do
    SignIn.clear s
    return .finished
  | .check s => do return .stands (← SignIn.check s)
  | .incrementFailures rules s => do return .number (← rules.incrementFailures s)
  | .markKnownGood rules s => do
    rules.markKnownGood s
    return .finished
  | .recordFailure rules s => do return .failed (← rules.recordFailure s)
  | .recordSuccess rules s remember => do
    rules.recordSuccess s remember
    return .finished

end Call

/-- The requests for the records of a subject. -/
inductive Sent (s : Subject) : Store.Request → Prop
  | lookKnown : Sent s (.get s.knownGoodKey)
  | lookCount : Sent s (.get s.failuresKey)
  | lookLock : Sent s (.ttlRemaining s.lockedKey)
  | lock (seconds : Nat) : Sent s (lockRequest s seconds)
  | count (ttl : Duration) : Sent s (countRequest s.failuresKey ttl)
  | remember (ttl : Duration) : Sent s (.set s.knownGoodKey "1" (some ttl))
  | forgetCount : Sent s (.delete s.failuresKey)
  | unlock : Sent s (.delete s.lockedKey)

/-- Those that only look. -/
inductive Looked (s : Subject) : Store.Request → Prop
  | known : Looked s (.get s.knownGoodKey)
  | count : Looked s (.get s.failuresKey)
  | lock : Looked s (.ttlRemaining s.lockedKey)

theorem Looked.sent {s : Subject} {r : Store.Request} (h : Looked s r) : Sent s r := by
  cases h with
  | known => exact .lookKnown
  | count => exact .lookCount
  | lock => exact .lookLock

theorem Looked.reads {s : Subject} {r : Store.Request} (h : Looked s r) : r.writes = false := by
  cases h <;> rfl

variable {ω : Type} (rules : Rules) (s : Subject)

theorem isKnownGood_looks : Strict (Looked s) (isKnownGood s : Action ω Bool) :=
  strict_bind (strict_call .known) fun _ => strict_pure _

theorem failureCount_looks : Strict (Looked s) (failureCount s : Action ω Int) := by
  refine strict_bind (strict_call .count) fun text? => ?_
  cases text? with
  | none => exact strict_pure _
  | some text => exact strict_ofExcept _

theorem lockedSeconds_looks : Strict (Looked s) (lockedSeconds s : Action ω Int) := by
  refine strict_bind (strict_call .lock) fun left? => ?_
  cases left? with
  | none => exact strict_pure _
  | some left => exact strict_pure _

theorem check_looks : Strict (Looked s) (check s : Action ω Standing) := by
  refine strict_bind (isKnownGood_looks s) fun known => ?_
  cases known with
  | true => exact strict_pure _
  | false =>
    refine strict_bind (lockedSeconds_looks s) fun seconds => ?_
    split <;> exact strict_pure _

theorem isKnownGood_strict : Strict (Sent s) (isKnownGood s : Action ω Bool) :=
  (isKnownGood_looks s).mono fun _ => Looked.sent

theorem failureCount_strict : Strict (Sent s) (failureCount s : Action ω Int) :=
  (failureCount_looks s).mono fun _ => Looked.sent

theorem lockedSeconds_strict : Strict (Sent s) (lockedSeconds s : Action ω Int) :=
  (lockedSeconds_looks s).mono fun _ => Looked.sent

theorem check_strict : Strict (Sent s) (check s : Action ω Standing) :=
  (check_looks s).mono fun _ => Looked.sent

theorem setLocked_strict (seconds : Nat) : Strict (Sent s) (setLocked s seconds : Action ω Unit) := by
  unfold setLocked
  split
  · exact strict_pure _
  · exact strict_call (.lock seconds)

theorem clear_strict : Strict (Sent s) (clear s : Action ω Unit) :=
  strict_bind (strict_call .forgetCount) fun _ => strict_bind (strict_call .unlock) fun _ => strict_pure _

theorem incrementFailures_strict : Strict (Sent s) (rules.incrementFailures s : Action ω Int) :=
  strict_call (.count rules.failureTtl)

theorem markKnownGood_strict : Strict (Sent s) (rules.markKnownGood s : Action ω Unit) :=
  strict_call (.remember rules.knownGoodTtl)

theorem recordFailure_strict : Strict (Sent s) (rules.recordFailure s : Action ω FailureOutcome) := by
  refine strict_bind (isKnownGood_strict s) fun known => ?_
  cases known with
  | true => exact strict_pure _
  | false =>
    refine strict_bind (incrementFailures_strict rules s) fun failures => ?_
    dsimp only
    split
    · exact strict_pure _
    · exact strict_bind (setLocked_strict s _) fun _ => strict_pure _

theorem recordSuccess_strict (remember : Bool) : Strict (Sent s) (rules.recordSuccess s remember : Action ω Unit) := by
  refine strict_bind (clear_strict s) fun _ => ?_
  cases remember with
  | true => exact markKnownGood_strict rules s
  | false => exact strict_pure _

theorem Call.strict (call : Call) : Strict (Sent call.subject) (call.action : Action ω Result) := by
  cases call with
  | isKnownGood s => exact strict_bind (isKnownGood_strict s) fun _ => strict_pure _
  | failureCount s => exact strict_bind (failureCount_strict s) fun _ => strict_pure _
  | lockedSeconds s => exact strict_bind (lockedSeconds_strict s) fun _ => strict_pure _
  | setLocked s seconds => exact strict_bind (setLocked_strict s seconds) fun _ => strict_pure _
  | clear s => exact strict_bind (clear_strict s) fun _ => strict_pure _
  | check s => exact strict_bind (check_strict s) fun _ => strict_pure _
  | incrementFailures rules s => exact strict_bind (incrementFailures_strict rules s) fun _ => strict_pure _
  | markKnownGood rules s => exact strict_bind (markKnownGood_strict rules s) fun _ => strict_pure _
  | recordFailure rules s => exact strict_bind (recordFailure_strict rules s) fun _ => strict_pure _
  | recordSuccess rules s remember => exact strict_bind (recordSuccess_strict rules s remember) fun _ => strict_pure _

def Call.onlyReads : Call → Bool
  | .isKnownGood _ | .failureCount _ | .lockedSeconds _ | .check _ => true
  | _ => false

theorem Call.looks {call : Call} (h : call.onlyReads = true) :
    Strict (Looked call.subject) (call.action : Action ω Result) := by
  cases call with
  | isKnownGood s => exact strict_bind (isKnownGood_looks s) fun _ => strict_pure _
  | failureCount s => exact strict_bind (failureCount_looks s) fun _ => strict_pure _
  | lockedSeconds s => exact strict_bind (lockedSeconds_looks s) fun _ => strict_pure _
  | check s => exact strict_bind (check_looks s) fun _ => strict_pure _
  | _ => cases h

end Coordination.SignIn
