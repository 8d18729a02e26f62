import Coordination.Console.Run
import Coordination.Proofs.Settings.Given
import Coordination.Proofs.SignIn.Course

/-! # What delays are told for

The delay of a number of failures is told without the store, for the policy that the environment gives. It is the delay for
which a failure locks that is recorded under the settings of the same environment. Only an environment that cannot be read as
settings is not heard: then the standard policy answers, whatever is given.
-/
namespace Coordination.Console
open Settings (Gives GivesNumber ofVariables)

/-- The policy has the numbers that the environment gives, or their defaults. -/
def GivesPolicy (environment : List (String × String)) (policy : SignIn.Policy) : Prop :=
  GivesNumber environment "throttle_free_attempts" Settings.u32 3 policy.freeAttempts ∧
    ∃ seconds, GivesNumber environment "throttle_max_delay_secs" Settings.u64 900 seconds ∧
      policy.maxDelay = .ofSeconds seconds

/-- The tool fails and tells nothing, or it tells the delay under the policy that is given. -/
def Answers (environment : List (String × String)) (failures : Int) (ending : Ending) : Prop :=
  (ending.exitCode = 1 ∧ ending.screen.out = "") ∨
    ∃ policy, GivesPolicy environment policy ∧ ending = .printed (Span.render (policy.delayFor failures))

/-- The environment gives a number of the policy and cannot be read as settings. -/
structure Unheard (environment : List (String × String)) : Prop where
  unread : ∃ cause, ofVariables environment = .error (.configuration cause)
  given : ∃ setting ∈ ["throttle_free_attempts", "throttle_max_delay_secs"], ∃ text, Gives environment setting text

/-- A failure was recorded last: it locked for the delay itself, or without a delay for nothing. -/
def LocksFor (s : SignIn.Subject) (log : List (Answered Unit)) (delay : Duration) : Prop :=
  delay = .zero ∨ ∃ text, log.getLast? = some ⟨.store (.set s.lockedKey text (some delay)), .ok ()⟩

theorem printFailure_out (screen : Screen) (f : Failure) : (screen.printFailure f).out = screen.out := by
  unfold Screen.printFailure
  cases hint? f.message <;> rfl

section Policies
variable {environment : List (String × String)} {s : Settings}

theorem givesPolicy_of_ofVariables (h : ofVariables environment = .ok s) : GivesPolicy environment s.signIn.policy := by
  have hfree := Settings.givesNumber_of_ofVariables h "throttle_free_attempts" rfl rfl
  have hmax := Settings.givesNumber_of_ofVariables h "throttle_max_delay_secs" rfl rfl
  exact ⟨hfree, s.throttleMaxDelaySecs, hmax, rfl⟩

theorem givesPolicy_standard
    (h : ¬ ∃ setting ∈ ["throttle_free_attempts", "throttle_max_delay_secs"], ∃ text, Gives environment setting text) :
    GivesPolicy environment .standard := by
  have hnone : ∀ setting ∈ ["throttle_free_attempts", "throttle_max_delay_secs"], ∀ text, ¬ Gives environment setting text :=
    fun setting hmem text hgives => h ⟨setting, hmem, text, hgives⟩
  exact ⟨.inr ⟨hnone _ (by decide), rfl⟩, 900, .inr ⟨hnone _ (by decide), rfl⟩, rfl⟩

end Policies

section Locks
variable {s : SignIn.Subject} {log : List (Answered Unit)} {failures : Int} {delay : Duration}

theorem delayFor_ofSeconds {policy : SignIn.Policy} {cap : Nat} (h : policy.maxDelay = .ofSeconds cap) (failures : Int) :
    ∃ seconds, policy.delayFor failures = .ofSeconds seconds := by
  unfold SignIn.Policy.delayFor Duration.shorter
  rw [h]
  split
  · exact ⟨0, rfl⟩
  · dsimp only
    split
    · exact ⟨_, rfl⟩
    · exact ⟨cap, rfl⟩

theorem recordFailure_endsOn (rules : SignIn.Rules) (s : SignIn.Subject) :
    (rules.recordFailure s : Action Unit SignIn.FailureOutcome).run.EndsOn (fun last outcome =>
      ∀ failures delay, outcome = .ok (.recorded failures delay) → delay = rules.policy.delayFor failures ∧
        (rules.policy.lockout failures = 0 ∨
          last = some ⟨.store (SignIn.lockRequest s (rules.policy.lockout failures)), .ok ()⟩)) none := by
  rw [SignIn.run_recordFailure]
  intro reply
  rcases reply with failure | _ | text
  · rintro _ _ ⟨⟩
  · intro reply
    cases reply with
    | error failure => rintro _ _ ⟨⟩
    | ok n =>
      simp only [SignIn.afterCount]
      split
      · next hzero =>
        rintro _ _ ⟨⟩
        exact ⟨rfl, .inl hzero⟩
      · intro reply
        cases reply with
        | error failure => rintro _ _ ⟨⟩
        | ok _ =>
          rintro _ _ ⟨⟩
          exact ⟨rfl, .inr rfl⟩
  · rintro _ _ ⟨⟩

theorem locksFor_of_leads {rules : SignIn.Rules} {cap : Nat} (hcap : rules.policy.maxDelay = .ofSeconds cap)
    (h : (rules.recordFailure s : Action Unit SignIn.FailureOutcome).run.Leads log (.done (.ok (.recorded failures delay)))) :
    delay = rules.policy.delayFor failures ∧ LocksFor s log delay := by
  obtain ⟨hdelay, hlock⟩ := (recordFailure_endsOn rules s).of_leads h failures delay rfl
  obtain ⟨seconds, hseconds⟩ := delayFor_ofSeconds hcap failures
  have hlockout : rules.policy.lockout failures = seconds := by
    rw [SignIn.Policy.lockout, hseconds, Duration.secondsCeil_ofSeconds]
  rw [hlockout] at hlock
  refine ⟨hdelay, ?_⟩
  rw [hdelay, hseconds]
  rcases hlock with rfl | hlast
  · exact .inl rfl
  · rw [Option.or_none] at hlast
    exact .inr ⟨toString seconds, hlast⟩

end Locks

/-- Whatever the environment, the tool reaches no store to tell a delay. It answers for the policy that is given, with the
delay for which a failure of that number locks, unless what is given goes unheard: then it answers for the standard policy. -/
theorem delay_answers_for_policy {m : Type → Type} [Monad m] (o : Outside m) (environment : List (String × String))
    (arguments : List String) (failures : Int) (hread : Command.read arguments = .ok (.throttleDelay failures)) :
    ∃ ending, o.run environment arguments = pure ending ∧
      (¬ Unheard environment → Answers environment failures ending) ∧
      (Unheard environment → ending = .printed (Span.render (SignIn.Policy.standard.delayFor failures))) ∧
      ∀ s, ofVariables environment = .ok s → ∀ subject log delay,
        (s.signIn.recordFailure subject : Action Unit SignIn.FailureOutcome).run.Leads log
          (.done (.ok (.recorded failures delay))) →
        LocksFor subject log delay ∧ ending = .printed (Span.render delay) := by
  unfold Outside.run
  rw [hread]
  simp only [startOf, delayPolicy]
  cases hsettings : ofVariables environment with
  | ok s =>
    have hgiven := givesPolicy_of_ofVariables hsettings
    refine ⟨_, rfl, fun _ => .inr ⟨_, hgiven, rfl⟩, fun ⟨⟨_, hunread⟩, _⟩ => ?_, ?_⟩
    · cases hsettings.symm.trans hunread
    · rintro _ ⟨⟩ subject log delay hleads
      obtain ⟨rfl, hlocks⟩ := locksFor_of_leads rfl hleads
      exact ⟨hlocks, rfl⟩
  | error failure =>
    cases failure with
    | configuration cause =>
      refine ⟨_, rfl, fun hheard => .inr ⟨_, givesPolicy_standard fun hgiven => ?_, rfl⟩, fun _ => rfl, nofun⟩
      exact hheard ⟨⟨cause, hsettings⟩, hgiven⟩
    | unavailable | serialization | internal | invalidArgument =>
      refine ⟨_, rfl, fun _ => .inl ⟨rfl, printFailure_out ..⟩, fun ⟨⟨_, hunread⟩, _⟩ => ?_, nofun⟩
      cases hsettings.symm.trans hunread

def nobody : Outside Id := ⟨fun _ => .silence, "", 0⟩

/-- A store and both numbers of the policy. -/
def briefPolicyVariables : List (String × String) :=
  [("TOLLGATE_REDIS_URL", "redis://localhost"), ("TOLLGATE_THROTTLE_FREE_ATTEMPTS", "1"),
    ("TOLLGATE_THROTTLE_MAX_DELAY_SECS", "10")]

/-- With one free attempt and a cap of ten seconds, the fifth failure locks for the cap. -/
theorem fifth_failure_locks_ten_seconds :
    Command.read ["throttle", "delay", "5"] = .ok (.throttleDelay 5) ∧ ¬ Unheard briefPolicyVariables ∧
      Answers briefPolicyVariables 5 (.printed "10s") := by
  have hread : Command.read ["throttle", "delay", "5"] = .ok (.throttleDelay 5) := rfl
  have hsettings : ∃ s, ofVariables briefPolicyVariables = .ok s := ⟨_, rfl⟩
  have hheard : ¬ Unheard briefPolicyVariables := fun ⟨⟨_, hunread⟩, _⟩ => by
    obtain ⟨s, hs⟩ := hsettings
    cases hs.symm.trans hunread
  have hrun : nobody.run briefPolicyVariables ["throttle", "delay", "5"] = pure (.printed "10s") := rfl
  obtain ⟨ending, hending, hanswers, _⟩ := delay_answers_for_policy nobody briefPolicyVariables _ 5 hread
  obtain rfl : ending = .printed "10s" := hending.symm.trans hrun
  exact ⟨hread, hheard, hanswers hheard⟩

/-- No free attempts, but no store. -/
def noFreeAttempts : List (String × String) := [("TOLLGATE_THROTTLE_FREE_ATTEMPTS", "0")]

theorem gives_noFreeAttempts_iff {setting text : String} :
    Gives noFreeAttempts setting text ↔ text = "0" ∧ "throttle_free_attempts" = setting := by
  have hsetting : Settings.settingOf? "TOLLGATE_THROTTLE_FREE_ATTEMPTS" = some "throttle_free_attempts" := rfl
  simp only [Gives, noFreeAttempts, List.mem_singleton, Prod.mk.injEq, and_assoc, exists_eq_left, hsetting, Option.some.injEq]

theorem policy_of_noFreeAttempts {policy : SignIn.Policy} (h : GivesPolicy noFreeAttempts policy) :
    policy = ⟨0, .ofSeconds 900⟩ := by
  obtain ⟨hfree, seconds, hseconds, hmax⟩ := h
  simp only [GivesNumber, gives_noFreeAttempts_iff] at hfree hseconds
  have hzero : Text.Integer.parse (Bounds.unsigned Settings.u32.bits) "0" = .ok 0 := rfl
  obtain ⟨_, ⟨rfl, _⟩, hparse⟩ | ⟨hnone, _⟩ := hfree
  · obtain ⟨_, ⟨_, hother⟩, _⟩ | ⟨_, rfl⟩ := hseconds
    · exact absurd hother (by decide)
    · have hnumber : policy.freeAttempts = 0 := by
        have hcast := Except.ok.inj (hparse.symm.trans hzero)
        omega
      obtain ⟨free, cap⟩ := policy
      simp only at hnumber hmax
      rw [hnumber, hmax]
  · exact absurd ⟨rfl, trivial⟩ (hnone "0")

/-- Where the first failure locks for five seconds, the tool tells that it does not lock. -/
theorem given_policy_goes_unheard : ¬ ∀ (environment : List (String × String)) (failures : Int),
    ∃ ending, startOf environment (.throttleDelay failures) = .ended ending ∧ Answers environment failures ending := by
  intro h
  obtain ⟨ending, hstart, hanswers⟩ := h noFreeAttempts 1
  have htold : startOf noFreeAttempts (.throttleDelay 1) = .ended (.printed "none") := rfl
  cases hstart.symm.trans htold
  obtain ⟨hfailed, _⟩ | ⟨policy, hpolicy, hdelay⟩ := hanswers
  · cases hfailed
  · rw [policy_of_noFreeAttempts hpolicy] at hdelay
    revert hdelay
    decide +kernel

end Coordination.Console
