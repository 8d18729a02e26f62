import Coordination.Time

/-! # Lockout policy

How long a sign-in is locked after a number of failures: nothing for the free attempts, then ever longer up to a
cap.
-/
namespace Coordination.SignIn

structure Policy where
  freeAttempts : Nat
  maxDelay : Duration
deriving DecidableEq, Repr

namespace Policy

/-- Three free attempts and at most a quarter of an hour. -/
def standard : Policy := ⟨3, .ofSeconds 900⟩

/-- The seconds of lockout for the first failure that counts and the ones after it; the last repeats. -/
def escalation : List Nat := [5, 15, 30, 60, 300, 900]

/-- The lockout after so many failures. -/
def delayFor (policy : Policy) (failures : Int) : Duration :=
  if failures ≤ policy.freeAttempts then .zero
  else
    let counted := (failures - policy.freeAttempts - 1).toNat
    (Duration.ofSeconds (escalation.getD (min counted (escalation.length - 1)) 0)).shorter policy.maxDelay

end Policy

end Coordination.SignIn
