import Coordination.Proofs.SignIn.Backing
import Coordination.Proofs.SignIn.Lockout

/-! # The delay that a failure tells of

A failure takes the whole milliseconds of its delay and locks for as many seconds as cover them. A delay of a millisecond
or more is a lock at once, and a check tells of that lock as long as a millisecond is left of it. A shorter delay is told
of, and the lock stays as it was.
-/
namespace Coordination.SignIn
open Store (Cell Crash Memory countRequest)

variable {rules : Rules} {s : Subject} {x : Session} {n : Int} {delay : Duration} {lock : Cell}

/-- The steps that neither fail nor end a lock. -/
def Step.Quiet (s : Subject) : Step → Prop
  | .call op => op = .check
  | .aside r => r.leaves s.knownGoodKey = true ∧ r.leaves s.lockedKey = true
  | .advance _ => True

/-- The lock that a failure leaves which comes to a count. -/
def Rules.lockFor (rules : Rules) (failures : Int) (now : Instant) (lock : Cell) : Cell :=
  if rules.policy.lockout failures = 0 then lock else some (rules.lockEntry failures now)

theorem play_lockFor {t : Turn} {m m' : Memory} {rest : Faults} (hlock : m.Shows t.now s.lockedKey lock)
    (hunknown : m.Shows t.now s.knownGoodKey none) {k : Int}
    (hplay : t.play (afterCount rules s (.ok k)) m [] = (.ok (.ok (.recorded n delay)), m', rest)) :
    (n = k ∧ delay = rules.policy.delayFor k) ∧
      (rules.policy.lockout k ≠ 0 → countBounds.contains (rules.policy.lockout k) = true) ∧
      m'.Shows t.now s.knownGoodKey none ∧ m'.Shows t.now s.lockedKey (rules.lockFor k t.now lock) := by
  rw [afterCount] at hplay
  by_cases hzero : rules.policy.lockout k = 0
  · rw [if_pos hzero] at hplay
    cases hplay
    rw [Rules.lockFor, if_pos hzero]
    exact ⟨⟨rfl, rfl⟩, fun hlocks => absurd hzero hlocks, hunknown, hlock⟩
  · rw [if_neg hzero] at hplay
    rw [Rules.lockFor, if_neg hzero]
    obtain ⟨m₁, hframe, ⟨hm, _⟩ | ⟨hm, hends, hset⟩⟩ :=
      m.set_cases t.now s.lockedKey (toString (rules.policy.lockout k)) (millis_ofSeconds_ne hzero)
    · cases hplay.symm.trans (Turn.play_crashed hm)
    · cases hplay.symm.trans (Turn.play_served hm)
      exact ⟨⟨rfl, rfl⟩, fun _ => contains_of_ends hends,
        hframe.shows (lockedKey_ne_knownGoodKey s s).symm hunknown, hset⟩

/-- What a failure leaves that is recorded. -/
structure Recorded (rules : Rules) (s : Subject) (x : Session) (n : Int) (delay : Duration) (lock : Cell) : Prop where
  delay_eq : delay = rules.policy.delayFor n
  unknown : x.memory.visible? x.now s.knownGoodKey = none
  fits : rules.policy.lockout n ≠ 0 → countBounds.contains (rules.policy.lockout n) = true
  now_eq : (x.step rules s (.call .fail)).now = x.now
  stays : (x.step rules s (.call .fail)).memory.Shows x.now s.knownGoodKey none
  locked : (x.step rules s (.call .fail)).memory.Shows x.now s.lockedKey (rules.lockFor n x.now lock)

theorem recorded_of_play (hlock : x.memory.Shows x.now s.lockedKey lock)
    (hrecorded : (x.play (rules.recordFailure s).run).1 = .ok (.ok (.recorded n delay))) :
    Recorded rules s x n delay lock := by
  have hcountLock : (countRequest s.failuresKey rules.failureTtl).leaves s.lockedKey = true :=
    Store.Request.leaves_of_ne fun h => lockedKey_ne_failuresKey s s (Option.some.inj h).symm
  have hcountKnown : (countRequest s.failuresKey rules.failureTtl).leaves s.knownGoodKey = true :=
    Store.Request.leaves_of_ne fun h => failuresKey_ne_knownGoodKey s s (Option.some.inj h)
  obtain ⟨o, m', rest, hplay⟩ : ∃ o m' rest, x.play (rules.recordFailure s).run = (o, m', rest) := ⟨_, _, _, rfl⟩
  obtain rfl : o = .ok (.ok (.recorded n delay)) := by
    rw [hplay] at hrecorded
    exact hrecorded
  have hstep : x.step rules s (.call .fail) = _ := Session.step_of_play rfl hplay
  rw [Session.play, run_recordFailure, Turn.play_get] at hplay
  cases hseen : x.memory.visible? x.now s.knownGoodKey with
  | some e =>
    rw [hseen] at hplay
    cases hplay
  | none =>
    have hunknown : x.memory.Shows x.now s.knownGoodKey none := Memory.shows_none hseen
    rw [hseen, Option.map_none, afterKnown] at hplay
    obtain ⟨reply, m₁, hserve⟩ : ∃ reply m₁, (x.memory.serve x.now (.get s.knownGoodKey)).2.serve x.turn.now
      (countRequest s.failuresKey rules.failureTtl) = (reply, m₁) := ⟨_, _, rfl⟩
    have hlock₁ := (Memory.serve_shows_other hlock (r := .get s.knownGoodKey) (.inr rfl)).kept hcountLock hserve
    have hunknown₁ := (Memory.serve_shows_other hunknown (r := .get s.knownGoodKey) (.inr rfl)).kept hcountKnown hserve
    rcases reply with crash | failure | k
    · cases hplay.symm.trans (Turn.play_crashed hserve)
    · cases hplay.symm.trans (Turn.play_served hserve)
    · have hafter := (Turn.play_served hserve).symm.trans hplay
      obtain ⟨⟨rfl, hdelay⟩, hfits, hstays, hlocked⟩ := play_lockFor hlock₁ hunknown₁ hafter
      refine ⟨hdelay, hseen, hfits, ?_, ?_, ?_⟩
      · rw [hstep]
      · rwa [hstep]
      · rwa [hstep]

/-- What a check tells of a lock that ends at an instant. -/
def standingUntil (deadline now : Instant) : Standing :=
  if now.nanos + Duration.nanosPerMilli ≤ deadline.nanos then .locked (deadline.timeLeft now).secondsCeil else .allowed

theorem standingAfter_timeLeft {deadline now : Instant}
    (h : countBounds.contains (deadline.timeLeft now).secondsCeil = true) :
    standingAfter (some (deadline.timeLeft now)) = standingUntil deadline now := by
  have hshort := secondsCeil_le_iff (deadline.timeLeft now) 0
  simp only [Instant.timeLeft, Duration.ofSeconds, Nat.zero_mul] at hshort
  rw [standingAfter_some h, standingUntil]
  by_cases hmilli : now.nanos + Duration.nanosPerMilli ≤ deadline.nanos
  · rw [if_pos hmilli, if_neg]
    intro hzero
    have := hshort.1 (Nat.le_of_eq hzero)
    omega
  · have hpositive : 0 < Duration.nanosPerMilli := by decide
    rw [if_neg hmilli, if_pos]
    exact Nat.le_zero.1 (hshort.2 (by omega))

theorem told_of_lockEntry {m : Memory} {since now : Instant} (hsince : since.nanos ≤ now.nanos)
    (hfits : countBounds.contains (rules.policy.lockout n) = true) (hunknown : m.Shows now s.knownGoodKey none)
    (hlock : m.Shows now s.lockedKey (some (rules.lockEntry n since))) :
    toldAt s m now = .ok (.ok (standingUntil (since.advance (.ofSeconds (rules.policy.lockout n))) now)) := by
  have hseen : m.visible? now s.knownGoodKey = none := hunknown now (Nat.le_refl _)
  rw [told_of_unknown hseen hlock (Cell.serve_ttlRemaining ..)]
  by_cases hlive : now.nanos < (since.advance (.ofSeconds (rules.policy.lockout n))).nanos
  · rw [if_pos hlive, standingAfter_timeLeft (contains_secondsCeil hsince hfits)]
  · have hpositive : 0 < Duration.nanosPerMilli := by decide
    rw [if_neg hlive, standingUntil, if_neg (by omega), standingAfter]

theorem standingUntil_fresh (now : Instant) {seconds : Nat} (h : seconds ≠ 0) :
    standingUntil (now.advance (.ofSeconds seconds)) now = .locked seconds := by
  rw [standingUntil, if_pos, Instant.timeLeft_advance, Duration.secondsCeil_ofSeconds]
  simp only [Instant.advance, Duration.ofSeconds, Duration.nanosPerSecond, Duration.nanosPerMilli]
  omega

theorem secondsCeil_eq_zero_iff (d : Duration) : d.secondsCeil = 0 ↔ d.millis = 0 := by
  unfold Duration.secondsCeil
  omega

theorem secondsCeil_isLeast_of_subsecond {d : Duration} (h : d.subsecond = 0 ∨ Duration.nanosPerMilli ≤ d.subsecond) :
    IsLeast {k : Nat | d.nanos ≤ (Duration.ofSeconds k).nanos} d.secondsCeil := by
  have hcovers : ∀ k : Nat, d.secondsCeil ≤ k ↔ d.nanos ≤ (Duration.ofSeconds k).nanos := by
    intro k
    simp only [Duration.subsecond, Duration.nanosPerSecond, Duration.nanosPerMilli] at h
    simp only [Duration.secondsCeil, Duration.millis, Duration.ofSeconds, Duration.nanosPerSecond, Duration.nanosPerMilli]
    omega
  constructor
  · exact (hcovers _).1 (Nat.le_refl _)
  · intro k hk
    exact (hcovers k).2 hk

/-- Two records of a subject as a quiet step leaves them. -/
structure Holding (s : Subject) (since : Instant) (lock : Cell) (x : Session) : Prop where
  since_le : since.nanos ≤ x.now.nanos
  unknown : x.memory.Shows x.now s.knownGoodKey none
  locked : x.memory.Shows x.now s.lockedKey lock

namespace Holding
variable {since : Instant}

theorem step (rules : Rules) {step : Step} (h : Holding s since lock x) (hquiet : step.Quiet s) :
    Holding s since lock (x.step rules s step) := by
  cases step with
  | call op =>
    obtain rfl : op = .check := hquiet
    exact ⟨h.since_le, Session.shows_step_check rules s h.unknown, Session.shows_step_check rules s h.locked⟩
  | aside r => exact ⟨h.since_le, h.unknown.kept hquiet.1 rfl, h.locked.kept hquiet.2 rfl⟩
  | advance d =>
    have hle : x.now.nanos ≤ (x.now.advance d).nanos := Nat.le_add_right ..
    exact ⟨Nat.le_trans h.since_le hle, h.unknown.later hle, h.locked.later hle⟩

theorem run (rules : Rules) {steps : List Step} (h : Holding s since lock x) (hquiet : ∀ step ∈ steps, step.Quiet s) :
    Holding s since lock (x.run rules s steps) := by
  induction steps generalizing x with
  | nil => exact h
  | cons step rest ih =>
    apply ih (h.step rules (hquiet step List.mem_cons_self))
    exact fun step hstep => hquiet step (List.mem_cons_of_mem _ hstep)

end Holding

/-- A failure that tells of a delay of a millisecond or more has locked the subject: a check tells at once of the seconds
that cover the whole milliseconds of the delay, and it tells of a lock as long as a millisecond is left of those seconds,
whatever quiet steps follow. With a shorter delay a check tells what it told before. The seconds cover the delay itself,
unless less than a millisecond of it is past its last whole second. -/
theorem told_delay_is_locked (rules : Rules) (s : Subject) (x : Session) (n : Int) (delay : Duration)
    (hrecorded : (x.play (rules.recordFailure s).run).1 = .ok (.ok (.recorded n delay))) :
    let y := x.step rules s (.call .fail)
    let deadline := x.now.advance (.ofSeconds delay.secondsCeil)
    delay = rules.policy.delayFor n ∧ (delay.millis = 0 → toldAt s y.memory y.now = toldAt s x.memory x.now) ∧
      (delay.millis ≠ 0 → toldAt s y.memory y.now = .ok (.ok (.locked delay.secondsCeil)) ∧
        ∀ steps : List Step, (∀ step ∈ steps, step.Quiet s) →
          let z := y.run rules s steps
          toldAt s z.memory z.now = .ok (.ok
            (if z.now.nanos + Duration.nanosPerMilli ≤ deadline.nanos then .locked (deadline.timeLeft z.now).secondsCeil
              else .allowed))) ∧
      IsLeast {k : Nat | delay.nanos < (Duration.ofSeconds k).nanos + Duration.nanosPerMilli} delay.secondsCeil ∧
      (delay.subsecond = 0 ∨ Duration.nanosPerMilli ≤ delay.subsecond →
        IsLeast {k : Nat | delay.nanos ≤ (Duration.ofSeconds k).nanos} delay.secondsCeil) := by
  intro y deadline
  have hlock := x.memory.shows_find? x.now s.lockedKey
  have h := recorded_of_play hlock hrecorded
  obtain rfl := h.delay_eq
  refine ⟨rfl, ?_, ?_, secondsCeil_isLeast _, secondsCeil_isLeast_of_subsecond⟩
  · intro hshort
    have hkept := h.locked
    rw [Rules.lockFor, if_pos (show rules.policy.lockout n = 0 from (secondsCeil_eq_zero_iff _).2 hshort)] at hkept
    obtain ⟨left, hleft⟩ : ∃ left, (Cell.serve (x.memory.entries.find? s.lockedKey) x.now (.ttlRemaining s.lockedKey)).1 =
        .ok (.ok left) := ⟨_, rfl⟩
    rw [show y.now = x.now from h.now_eq, told_of_unknown h.unknown hlock hleft,
      told_of_unknown (h.stays x.now (Nat.le_refl _)) hkept hleft]
  · intro hlong
    have hlocks : rules.policy.lockout n ≠ 0 := fun hzero => hlong ((secondsCeil_eq_zero_iff _).1 hzero)
    have hlocked := h.locked
    rw [Rules.lockFor, if_neg hlocks] at hlocked
    have hholding : Holding s x.now (some (rules.lockEntry n x.now)) y :=
      ⟨Nat.le_of_eq (congrArg _ h.now_eq.symm), h.now_eq ▸ h.stays, h.now_eq ▸ hlocked⟩
    constructor
    · rw [told_of_lockEntry hholding.since_le (h.fits hlocks) hholding.unknown hholding.locked, h.now_eq]
      exact congrArg (fun standing => Except.ok (Except.ok standing)) (standingUntil_fresh x.now hlocks)
    · intro steps hquiet z
      have hz := hholding.run rules hquiet
      exact told_of_lockEntry hz.since_le (h.fits hlocks) hz.unknown hz.locked

def answer? {α : Type} (o : Except Crash (Except Failure α)) : Option α := o.toOption.bind Except.toOption

theorem answer?_eq_some {α : Type} {o : Except Crash (Except Failure α)} {a : α} : answer? o = some a ↔ o = .ok (.ok a) := by
  rcases o with crash | failure | b <;> simp [answer?, Except.toOption]

def cappedRules (maxDelay : Duration) : Rules := ⟨⟨0, maxDelay⟩, .ofSeconds 3600, .ofSeconds 3600⟩

def untilDelayEnds : List Step := [.call .check, .advance ⟨2500000000⟩]

theorem fractional_delay_is_locked :
    let rules := cappedRules ⟨2500000000⟩
    let x := Session.opened .empty ⟨0⟩
    let y := x.step rules someone (.call .fail)
    let z := y.run rules someone untilDelayEnds
    (x.play (rules.recordFailure someone).run).1 = .ok (.ok (.recorded 1 ⟨2500000000⟩)) ∧
      (∀ step ∈ untilDelayEnds, step.Quiet someone) ∧ toldAt someone y.memory y.now = .ok (.ok (.locked 3)) ∧
      toldAt someone z.memory z.now = .ok (.ok (.locked 1)) := by
  intro rules x y z
  have hrecorded : (x.play (rules.recordFailure someone).run).1 = .ok (.ok (.recorded 1 ⟨2500000000⟩)) :=
    answer?_eq_some.1 (by decide +kernel)
  have hquiet : ∀ step ∈ untilDelayEnds, step.Quiet someone := by
    simp [untilDelayEnds, Step.Quiet]
  have hnow : z.now = ⟨2500000000⟩ := by decide +kernel
  obtain ⟨_, _, hlocked, _⟩ := told_delay_is_locked rules someone x 1 ⟨2500000000⟩ hrecorded
  obtain ⟨hfresh, hlasts⟩ := hlocked (by decide)
  refine ⟨hrecorded, hquiet, hfresh, ?_⟩
  rw [hlasts untilDelayEnds hquiet, show (y.run rules someone untilDelayEnds).now = _ from hnow]
  exact answer?_eq_some.1 (by decide)

/-- A failure tells of a delay of half a millisecond, and the subject is not locked. -/
theorem tiny_delay_is_not_locked :
    ¬ ∀ (rules : Rules) (s : Subject) (x : Session) (n : Int) (delay : Duration),
      (x.play (rules.recordFailure s).run).1 = .ok (.ok (.recorded n delay)) → delay.nanos ≠ 0 →
      let y := x.step rules s (.call .fail)
      ∃ k, IsLeast {k : Nat | delay.nanos ≤ (Duration.ofSeconds k).nanos} k ∧
        toldAt s y.memory y.now = .ok (.ok (.locked k)) := by
  intro hclaim
  let rules := cappedRules ⟨500000⟩
  let x := Session.opened .empty ⟨0⟩
  have hrecorded : (x.play (rules.recordFailure someone).run).1 = .ok (.ok (.recorded 1 ⟨500000⟩)) :=
    answer?_eq_some.1 (by decide +kernel)
  have hallowed : toldAt someone (x.step rules someone (.call .fail)).memory ⟨0⟩ = .ok (.ok .allowed) :=
    answer?_eq_some.1 (by decide +kernel)
  obtain ⟨k, _, hlocked⟩ := hclaim rules someone x 1 ⟨500000⟩ hrecorded (by decide)
  cases hallowed.symm.trans hlocked

end Coordination.SignIn
