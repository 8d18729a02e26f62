import Coordination.Console.Run
import Coordination.Proofs.Console.Span
import Coordination.Proofs.RateLimit.Hint

/-! # Waits that are told twice

The milliseconds of a decision that blocks are told to operators as a span of whole seconds, rounded down but at least one,
and to clients as a number of seconds, rounded up. So operators read what clients are told only if the milliseconds are
whole seconds or less than one, and otherwise a second less, which is over before the wait.
-/
namespace Coordination.Console
open RateLimit (Decision Dimension Rules Context)

def waitLine (d : Dimension) (shown : String) : String := deniedLine s!"Blocked by {Style.bold d.title}, retry after {shown}"

theorem waitLine_inj {d : Dimension} {shown shown' : String} (h : waitLine d shown = waitLine d shown') : shown = shown' := by
  unfold waitLine deniedLine at h
  exact (String.append_right_inj _).1 ((String.append_right_inj _).1 h)

theorem decisionLine_of_blocked {decision : Decision} {d : Dimension} (hblocked : decision.isBlocked = true)
    (hby : decision.blockedBy = some d) :
    decisionLine decision = waitLine d (Span.render (.ofMillis decision.retryAfterMs)) := by
  unfold decisionLine
  rw [hblocked, hby]
  rfl

theorem leads_runCheckRate {rules : Rules} {context : Context} {log : List (Answered Unit)} {decision : Decision}
    (h : (rules.check context).run.Leads log (.done (.ok decision))) (screen : Screen) :
    ∃ front err, ((runCheckRate rules context false).run.run screen).Leads log
      (.done (.ok (), ⟨front ++ decisionLine decision ++ "\n", err⟩)) := by
  -- The command asks what the check asks; only the screen goes along with it.
  have hlifted := h.within fun result => Program.done (result, screen)
  have hdecided : ((runCheckRate rules context false).run.run screen).Leads log _ := hlifted.within _
  cases hrows : dimensionRows rules.thresholds context with
  | nil =>
    rw [hrows] at hdecided
    exact ⟨screen.out, _, hdecided⟩
  | cons row rows =>
    rw [hrows] at hdecided
    exact ⟨screen.out ++ Table.render ["Dimension", "Value", "Threshold"] (row :: rows) ++ "\n", screen.err, hdecided⟩

theorem blockedBy_of_leads {rules : Rules} {context : Context} {log : List (Answered Unit)} {decision : Decision}
    (h : (rules.check context).run.Leads log (.done (.ok decision))) (hblocked : decision.isBlocked = true) :
    ∃ d, decision.blockedBy = some d := by
  have hmade := (RateLimit.Visit.endsOn rules ⟨context, none⟩ none).of_leads h
  obtain ⟨_, d, _, _, _, hrefused⟩ := hmade decision rfl hblocked
  cases hrefused <;> exact ⟨d, rfl⟩

/-- What is told of a decision: to operators in the last line of the check that comes to it, and to clients in the response. -/
structure ToldBoth (decision : Decision) (d : Dimension) (shown : String) (seconds : Nat) : Prop where
  line : decisionLine decision = waitLine d shown
  command : ∀ (rules : Rules) (context : Context) (log : List (Answered Unit)),
    (rules.check context).run.Leads log (.done (.ok decision)) → ∀ screen, ∃ front err,
      ((runCheckRate rules context false).run.run screen).Leads log (.done (.ok (), ⟨front ++ waitLine d shown ++ "\n", err⟩))
  header : (Http.tooManyRequests decision).headers.get? "retry-after" = some (toString seconds).toUTF8
  response : ∀ (rules : Rules) (request : Http.Request) (next : Program Unit Http.Response) (log : List (Answered Unit)),
    (rules.check (request.context.getD {})).run.Leads log (.done (.ok decision)) →
      (Http.limitRate rules request next).Leads log (.done (Http.tooManyRequests decision))

theorem toldBoth_of_blocked {decision : Decision} {d : Dimension} (hblocked : decision.isBlocked = true)
    (hby : decision.blockedBy = some d) :
    ToldBoth decision d (Span.render (.ofMillis decision.retryAfterMs)) (Http.retryAfterSeconds decision.retryAfterMs) where
  line := decisionLine_of_blocked hblocked hby
  command := decisionLine_of_blocked hblocked hby ▸ fun _ _ _ => leads_runCheckRate
  header := Http.Headers.get?_insert ..
  response rules request next log h := (RateLimit.refused_of_blocked rules _ hblocked).response request next log rfl h

/-- What operators are shown is read back as the whole seconds, and at least one. -/
theorem parse?_render {ms : Nat} (hsome : ms ≠ 0) (hword : ms ≤ RateLimit.mostMillis) :
    Span.parse? (Span.render (.ofMillis ms)) = some (.ofSeconds (max 1 (ms / 1000))) := by
  have hzero : (Duration.ofMillis ms).isZero = false := by
    simp only [Duration.isZero, Duration.ofMillis, Duration.nanosPerMilli, beq_eq_false_iff_ne]
    omega
  have hlimit : max 1 (ms / 1000) ≤ Span.numberLimit := by
    have hmost : RateLimit.mostMillis = Span.numberLimit := rfl
    have hone : 1 ≤ Span.numberLimit := by decide
    omega
  rw [Span.render, hzero, Duration.seconds_ofMillis]
  exact Span.parse?_ofSeconds (Nat.le_max_left ..) hlimit

/-- Operators read of a wait that clients are told if its milliseconds are whole seconds or less than one. Of any other they
read a second less, which is over before the wait, and of no wait at all they are told that there is none. -/
theorem waits_agree_on_whole_seconds (decision : Decision) (hblocked : decision.isBlocked = true)
    (hword : decision.retryAfterMs ≤ RateLimit.mostMillis) :
    let wait := Duration.ofMillis decision.retryAfterMs
    let told := Http.retryAfterSeconds decision.retryAfterMs
    let isWhole := decision.retryAfterMs < 1000 ∨ 1000 ∣ decision.retryAfterMs
    (decision.blockedBy = none → ∀ (rules : Rules) (context : Context) (log : List (Answered Unit)),
      ¬ (rules.check context).run.Leads log (.done (.ok decision))) ∧
    ∀ d, decision.blockedBy = some d → ∃ shown, ToldBoth decision d shown told ∧
      (decision.retryAfterMs = 0 → shown = "none" ∧ told = 1) ∧
      (decision.retryAfterMs ≠ 0 → ∃ seconds, Span.parse? shown = some (.ofSeconds seconds) ∧
        (isWhole → seconds = told ∧ wait.nanos ≤ (Duration.ofSeconds seconds).nanos) ∧
        (¬ isWhole → seconds + 1 = told ∧ (Duration.ofSeconds seconds).nanos < wait.nanos)) := by
  intro wait told isWhole
  have hseconds : told = max 1 ((decision.retryAfterMs + 999) / 1000) := rfl
  constructor
  · intro hby rules context log h
    obtain ⟨d, hd⟩ := blockedBy_of_leads h hblocked
    cases hby.symm.trans hd
  · intro d hby
    refine ⟨_, toldBoth_of_blocked hblocked hby, fun hnone => ?_, fun hsome => ?_⟩
    · rw [hseconds, hnone]
      exact ⟨rfl, rfl⟩
    · refine ⟨_, parse?_render hsome hword, fun hwhole => ?_, fun hpart => ?_⟩
      · simp only [isWhole] at hwhole
        simp only [wait, Duration.ofMillis, Duration.ofSeconds, Duration.nanosPerMilli, Duration.nanosPerSecond]
        omega
      · simp only [isWhole] at hpart
        simp only [wait, Duration.ofMillis, Duration.ofSeconds, Duration.nanosPerMilli, Duration.nanosPerSecond]
        omega

/-- A day, an hour, a minute and a second and a half. -/
def longBlock : Decision := ⟨true, some .city, 90061500⟩

/-- Operators read of a day, an hour, a minute and a second, and clients of a second more. -/
theorem long_block_is_told_short : longBlock.isBlocked = true ∧ longBlock.retryAfterMs ≤ RateLimit.mostMillis ∧
    ToldBoth longBlock .city "1day 1h 1m 1s" 90062 ∧
    ∃ seconds, Span.parse? "1day 1h 1m 1s" = some (.ofSeconds seconds) ∧ seconds + 1 = 90062 := by
  have hword : longBlock.retryAfterMs ≤ RateLimit.mostMillis := by decide
  have htold : Http.retryAfterSeconds longBlock.retryAfterMs = 90062 := by decide +kernel
  obtain ⟨shown, hboth, _, hsome⟩ := (waits_agree_on_whole_seconds longBlock rfl hword).2 .city rfl
  obtain rfl : shown = "1day 1h 1m 1s" := waitLine_inj (hboth.line.symm.trans rfl)
  obtain ⟨seconds, hparse, _, hshort⟩ := hsome (by decide)
  rw [htold] at hboth hshort
  exact ⟨rfl, hword, hboth, seconds, hparse, (hshort (by decide)).1⟩

/-- What holds of the seconds that operators read of all decisions that block. -/
def OfWaits (holds : Decision → Nat → Prop) : Prop :=
  ∀ decision : Decision, decision.isBlocked = true → decision.retryAfterMs ≤ RateLimit.mostMillis →
    ∀ d shown, decision.blockedBy = some d → decisionLine decision = waitLine d shown →
      ∃ seconds, Span.parse? shown = some (.ofSeconds seconds) ∧ holds decision seconds

/-- Of a second and a half operators read of one second: clients are told of two, and it is over before the wait. Where
operators read of no wait clients are told of a second. -/
theorem operators_are_told_short :
    ¬ OfWaits (fun decision seconds =>
      (Http.tooManyRequests decision).headers.get? "retry-after" = some (toString seconds).toUTF8) ∧
    ¬ OfWaits (fun decision seconds =>
      (Duration.ofMillis decision.retryAfterMs).nanos ≤ (Duration.ofSeconds seconds).nanos) ∧
    decisionLine ⟨true, some .ip, 0⟩ = waitLine .ip "none" ∧
    (Http.tooManyRequests ⟨true, some .ip, 0⟩).headers.get? "retry-after" = some "1".toUTF8 := by
  have hword : (1500 : Nat) ≤ RateLimit.mostMillis := by decide
  have hone : ∀ {seconds}, Span.parse? "1s" = some (.ofSeconds seconds) → seconds = 1 := by
    intro seconds h
    have hread : Span.parse? "1s" = some (.ofSeconds 1) := rfl
    have hnanos := congrArg Duration.nanos (Option.some.inj (h.symm.trans hread))
    simp only [Duration.ofSeconds, Duration.nanosPerSecond] at hnanos
    omega
  refine ⟨?_, ?_, rfl, by decide +kernel⟩
  · intro h
    obtain ⟨seconds, hparse, hheader⟩ := h ⟨true, some .ip, 1500⟩ rfl hword .ip "1s" rfl rfl
    obtain rfl := hone hparse
    revert hheader
    decide +kernel
  · intro h
    obtain ⟨seconds, hparse, hlong⟩ := h ⟨true, some .ip, 1500⟩ rfl hword .ip "1s" rfl rfl
    obtain rfl := hone hparse
    revert hlong
    decide

end Coordination.Console
