import Coordination.SignIn.Throttle
import Coordination.Proofs.Pool.Path
import Coordination.Proofs.Store.Counter
import Coordination.Proofs.Turn.Play
import Coordination.Proofs.Turn.World

/-! # The course of an attempt

A failure looks for the mark of a known subject first. Without one it is counted, and the count decides whether it writes a
lock and for how many seconds. A check looks for the same mark and then at what is left of the lock. The three records
of a subject have keys that no other record of any subject has.
-/
namespace Coordination.SignIn
open Store (countRequest)

variable {ω : Type}

theorem ending_key (s : Subject) {record : String} (h : 2 ≤ record.toList.length) :
    (s.key record).toList.reverse.take 2 = record.toList.reverse.take 2 := by
  obtain ⟨front, hkey⟩ : ∃ front, (s.key record).toList = front ++ record.toList := by
    unfold Subject.key
    rw [String.toList_append]
    exact ⟨_, rfl⟩
  rw [hkey, List.reverse_append, List.take_append_of_le_length]
  rwa [List.length_reverse]

theorem key_ne_key (s s' : Subject) {record record' : String} (h : 2 ≤ record.toList.length)
    (h' : 2 ≤ record'.toList.length) (hne : record.toList.reverse.take 2 ≠ record'.toList.reverse.take 2) :
    s.key record ≠ s'.key record' := by
  intro heq
  rw [← ending_key s h, ← ending_key s' h', heq] at hne
  exact hne rfl

theorem lockedKey_ne_failuresKey (s s' : Subject) : s.lockedKey ≠ s'.failuresKey :=
  key_ne_key s s' (by decide) (by decide) (by decide)

theorem lockedKey_ne_knownGoodKey (s s' : Subject) : s.lockedKey ≠ s'.knownGoodKey :=
  key_ne_key s s' (by decide) (by decide) (by decide)

theorem failuresKey_ne_knownGoodKey (s s' : Subject) : s.failuresKey ≠ s'.knownGoodKey :=
  key_ne_key s s' (by decide) (by decide) (by decide)

/-- The whole seconds for which a failure locks that brings the count to `failures`. -/
def Policy.lockout (policy : Policy) (failures : Int) : Nat := (policy.delayFor failures).secondsCeil

theorem Policy.escalation_mono {i j : Nat} (h : i ≤ j) :
    escalation.getD (min i (escalation.length - 1)) 0 ≤ escalation.getD (min j (escalation.length - 1)) 0 := by
  have hsteps : ∀ j < 6, ∀ i ≤ j, escalation.getD i 0 ≤ escalation.getD j 0 := by decide
  have hlength : escalation.length - 1 = 5 := rfl
  rw [hlength]
  exact hsteps _ (by omega) _ (by omega)

theorem Policy.delayFor_of_lt (policy : Policy) {n : Int} (h : policy.freeAttempts < n) : policy.delayFor n =
    (Duration.ofSeconds (escalation.getD (min (n - policy.freeAttempts - 1).toNat (escalation.length - 1)) 0)).shorter
      policy.maxDelay := by
  unfold delayFor
  rw [if_neg (by omega)]

theorem Policy.delayFor_mono (policy : Policy) {m n : Int} (h : m ≤ n) :
    (policy.delayFor m).nanos ≤ (policy.delayFor n).nanos := by
  by_cases hm : policy.freeAttempts < m
  · have hn : policy.freeAttempts < n := Int.lt_of_lt_of_le hm h
    have hsteps := escalation_mono (by omega : (m - policy.freeAttempts - 1).toNat ≤ (n - policy.freeAttempts - 1).toNat)
    rw [delayFor_of_lt policy hm, delayFor_of_lt policy hn, Duration.nanos_shorter, Duration.nanos_shorter]
    exact Nat.le_min_of_le_of_le (Nat.le_trans (Nat.min_le_left ..) (Duration.ofSeconds_mono hsteps)) (Nat.min_le_right ..)
  · have hfree : policy.delayFor m = .zero := if_pos (by omega)
    rw [hfree]
    exact Nat.zero_le _

theorem Policy.lockout_mono (policy : Policy) {m n : Int} (h : m ≤ n) : policy.lockout m ≤ policy.lockout n :=
  Duration.secondsCeil_mono (policy.delayFor_mono h)

def lockRequest (s : Subject) (seconds : Nat) : Store.Request :=
  .set s.lockedKey (toString seconds) (some (.ofSeconds seconds))

theorem millis_ofSeconds_ne {seconds : Nat} (h : seconds ≠ 0) : (Duration.ofSeconds seconds).millis ≠ 0 := by
  simp only [Duration.ofSeconds, Duration.millis, Duration.nanosPerSecond, Duration.nanosPerMilli]
  omega

section Places
variable (rules : Rules) (s : Subject)

def recorded (failures : Int) : FailureOutcome := .recorded failures (rules.policy.delayFor failures)

def afterLock (failures : Int) : Except Failure Unit → Program ω (Except Failure FailureOutcome)
  | .error failure => .done (.error failure)
  | .ok () => .done (.ok (recorded rules failures))

def afterCount : Except Failure Int → Program ω (Except Failure FailureOutcome)
  | .error failure => .done (.error failure)
  | .ok failures =>
    if rules.policy.lockout failures = 0 then .done (.ok (recorded rules failures))
    else .ask (.store (lockRequest s (rules.policy.lockout failures))) (afterLock rules failures)

def afterKnown : Except Failure (Option String) → Program ω (Except Failure FailureOutcome)
  | .error failure => .done (.error failure)
  | .ok (some _) => .done (.ok .bypassed)
  | .ok none => .ask (.store (countRequest s.failuresKey rules.failureTtl)) (afterCount rules s)

theorem run_setLocked (seconds : Nat) : (setLocked s seconds : Action ω Unit).run =
    if seconds = 0 then .done (.ok ()) else .ask (.store (lockRequest s seconds)) .done := by
  unfold setLocked
  split <;> rfl

theorem locking_eq (failures : Int) :
    (let delay := rules.policy.delayFor failures
      if delay.isZero then (pure (.recorded failures delay) : Action ω FailureOutcome)
      else do
        setLocked s delay.secondsCeil
        pure (.recorded failures delay)).run = afterCount rules s (.ok failures) := by
  have hzero : (rules.policy.delayFor failures).isZero → rules.policy.lockout failures = 0 := by
    intro h
    simp only [Duration.isZero, beq_iff_eq] at h
    simp [Policy.lockout, Duration.secondsCeil, Duration.millis, h]
  simp only [afterCount]
  by_cases h : (rules.policy.delayFor failures).isZero
  · rw [if_pos h, if_pos (hzero h)]
    rfl
  · rw [if_neg h, Action.run_bind, run_setLocked]
    show Program.bind (if rules.policy.lockout failures = 0 then _ else _) _ = _
    split
    · rfl
    · show Program.ask _ _ = Program.ask _ _
      congr
      funext reply
      cases reply <;> rfl

theorem run_recordFailure : (rules.recordFailure s : Action ω FailureOutcome).run =
    .ask (.store (.get s.knownGoodKey)) (afterKnown rules s) := by
  show Program.ask (.store (.get s.knownGoodKey)) _ = _
  congr
  funext reply
  rcases reply with failure | _ | text
  · rfl
  · show Program.ask (.store (countRequest s.failuresKey rules.failureTtl)) _ = Program.ask _ _
    congr
    funext reply
    cases reply with
    | error failure => rfl
    | ok failures => exact locking_eq rules s failures
  · rfl

/-- What a check makes of what is left of the lock. -/
def standingAfter : Option Duration → Standing
  | none => .allowed
  | some left =>
    if 0 < countBounds.capped left.secondsCeil then .locked (countBounds.capped left.secondsCeil).natAbs else .allowed

theorem run_check : (check s : Action ω Standing).run =
    .ask (.store (.get s.knownGoodKey)) fun
      | .error failure => .done (.error failure)
      | .ok (some _) => .done (.ok .allowed)
      | .ok none => .ask (.store (.ttlRemaining s.lockedKey)) fun reply => .done (reply.map standingAfter) := by
  show Program.ask (.store (.get s.knownGoodKey)) _ = _
  congr
  funext reply
  rcases reply with failure | _ | text
  · rfl
  · show Program.ask (.store (.ttlRemaining s.lockedKey)) _ = Program.ask _ _
    congr
    funext reply
    rcases reply with failure | _ | left
    · rfl
    · rfl
    · show ExceptT.run (if 0 < countBounds.capped left.secondsCeil then _ else _) = Program.done (.ok (standingAfter _))
      rw [standingAfter]
      split <;> rfl
  · rfl

theorem check_avoids (key : String) : (check s : Action ω Standing).run.Avoids key := by
  rw [run_check]
  refine ⟨fun r hr => ?_, fun reply => ?_⟩
  · cases hr
    exact Store.Request.leaves_of_reads rfl
  · rcases reply with failure | _ | text
    · trivial
    · refine ⟨fun r hr => ?_, fun _ => trivial⟩
      cases hr
      exact Store.Request.leaves_of_reads rfl
    · trivial

theorem run_recordSuccess (remember : Bool) : (rules.recordSuccess s remember : Action ω Unit).run =
    .ask (.store (.delete s.failuresKey)) fun
      | .error failure => .done (.error failure)
      | .ok _ => .ask (.store (.delete s.lockedKey)) fun
        | .error failure => .done (.error failure)
        | .ok _ =>
          if remember then .ask (.store (.set s.knownGoodKey "1" (some rules.knownGoodTtl))) .done
          else .done (.ok ()) := by
  show Program.ask (.store (.delete s.failuresKey)) _ = _
  congr
  funext reply
  cases reply with
  | error failure => rfl
  | ok _ =>
    show Program.ask (.store (.delete s.lockedKey)) _ = Program.ask _ _
    congr
    funext reply
    cases reply with
    | error failure => rfl
    | ok _ => cases remember <;> rfl

end Places

end Coordination.SignIn
