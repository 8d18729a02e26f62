import Coordination.Proofs.Services.Lifetimes

/-! # How long the clock lasts

A deadline that the clock cannot hold crashes the operation that asked for it. Settings in milliseconds are far too short for
that, and so are the lockouts of a streak. The two lifetimes of a throttle are set in seconds, in a word that reaches beyond
the clock, and the settings are accepted with any of them. These, and a lock that a caller sets itself, are all that can
crash an operation.
-/
namespace Coordination
open Store (Crash Memory)

variable {ι ω α : Type}

namespace Pool
variable {s : Traffic ι ω α} {P : ι → Store.Request → Prop}

/-- Programs send such requests only, and what has crashed was one of them, whose lifetime ended past the clock. -/
structure Sending (P : ι → Store.Request → Prop) (p : Pool ι ω α) : Prop where
  sends : p.AllStand fun op rest => rest.Sends (P op)
  crashes : ∀ e ∈ p.history, ∀ (r : Store.Request) (c : Crash), e.what = .crashed r c →
    P e.op r ∧ ∃ ttl, r.ttl? = some ttl ∧ e.time.add? ttl = none

theorem Sending.change (hsends : ∀ op, (s.program op).Sends (P op)) {p p' : Pool ι ω α} (h : p.Sending P)
    (hchange : Change s p p') : p'.Sending P where
  sends := hchange.allStand h.sends hsends fun a _ _ hstood => hstood.next a
  crashes e he r c hwhat := by
    rcases hchange.crash_cases he hwhat with he | ⟨next, ht, htime, hcrash⟩
    · exact h.crashes e he r c hwhat
    · obtain ⟨ttl, httl, hpast⟩ := Memory.ttl_of_crash hcrash
      exact ⟨(h.sends _ _ ht).1, ttl, httl, htime ▸ hpast⟩

theorem sending_run (hsends : ∀ op, (s.program op).Sends (P op)) (m : Memory) (start : Instant) (moves : List (Move ι ω)) :
    ((opened m start).run s moves).Sending P :=
  run_induction (fun h hchange => h.change hsends hchange) ⟨allStand_opened m start, by simp [opened]⟩ moves

end Pool

namespace Services
variable {s : Settings} {op : Operation}

def centurySeconds : Nat := 36525 * 24 * 60 * 60

/-- The clock has not run for more than a hundred years. -/
def FirstCentury (t : Instant) : Prop := t.nanos ≤ (Duration.ofSeconds centurySeconds).nanos

/-- The lifetimes in seconds that settings and callers of a throttle are free to choose. -/
inductive Chosen (s : Settings) : Operation → Nat → Prop
  | streak {op : Operation} (hop : op.CountsFailure) : Chosen s op s.throttleFailureTtlSecs
  | knownGood {op : Operation} (hop : op.Remembers) : Chosen s op s.throttleKnownGoodTtlSecs
  | lock (subject : SignIn.Subject) (seconds : Nat) : Chosen s (.signIn (.setLocked subject seconds)) seconds

theorem FirstCentury.seconds_le {t : Instant} (h : FirstCentury t) : t.nanos / Duration.nanosPerSecond ≤ centurySeconds :=
  Nat.div_le_of_le_mul (Nat.mul_comm .. ▸ h)

/-- In the first century only what a throttle was given in seconds ends past the clock. -/
theorem Term.chosen_of_past {ttl : Duration} (h : Term s op ttl) {t : Instant} (ht : FirstCentury t)
    (hpast : t.add? ttl = none) :
    ∃ n, ttl = .ofSeconds n ∧ Instant.endOfClock ≤ t.nanos / Duration.nanosPerSecond + n ∧ Chosen s op n := by
  cases h with
  | @millis op n _ hfits =>
    have hend := Instant.add?_eq_none_iff.1 hpast
    have hshort : t.nanos + n * Duration.nanosPerMilli < Instant.endOfClock * Duration.nanosPerSecond := by
      have hbound : (Duration.ofSeconds centurySeconds).nanos + Nat.pow 2 64 * Duration.nanosPerMilli <
        Instant.endOfClock * Duration.nanosPerSecond := by decide
      have hmillis := Nat.mul_lt_mul_of_pos_right hfits (by decide : 0 < Duration.nanosPerMilli)
      exact Nat.lt_trans (Nat.add_lt_add_of_le_of_lt ht hmillis) hbound
    exact absurd ((Nat.le_div_iff_mul_le (by decide)).1 hend) (Nat.not_le.2 hshort)
  | @lockout op n _ hshort =>
    have hend := Instant.add?_ofSeconds_eq_none_iff.1 hpast
    have hbound : centurySeconds + 900 < Instant.endOfClock := by decide
    exact absurd (Nat.le_trans hend (Nat.add_le_add ht.seconds_le hshort)) (Nat.not_le.2 hbound)
  | @lock subject n => exact ⟨n, rfl, Instant.add?_ofSeconds_eq_none_iff.1 hpast, .lock subject n⟩
  | streak hop => exact ⟨_, rfl, Instant.add?_ofSeconds_eq_none_iff.1 hpast, .streak hop⟩
  | knownGood hop => exact ⟨_, rfl, Instant.add?_ofSeconds_eq_none_iff.1 hpast, .knownGood hop⟩

/-- A lifetime leaves room on the clock for a century. -/
def Roomy (seconds : Nat) : Prop := centurySeconds + seconds < Instant.endOfClock

theorem Chosen.lock_of_roomy {n : Nat} (h : Chosen s op n) (hfailure : Roomy s.throttleFailureTtlSecs)
    (hknown : Roomy s.throttleKnownGoodTtlSecs) {t : Instant} (ht : FirstCentury t)
    (hpast : Instant.endOfClock ≤ t.nanos / Duration.nanosPerSecond + n) :
    ∃ subject seconds, op = .signIn (.setLocked subject seconds) := by
  have hlong : ¬ Roomy n := Nat.not_lt.2 (Nat.le_trans hpast (Nat.add_le_add_right ht.seconds_le n))
  cases h with
  | streak => exact absurd hfailure hlong
  | knownGood => exact absurd hknown hlong
  | lock subject => exact ⟨subject, n, rfl⟩

/-- With settings that were accepted, an operation crashes in the first century only over a lifetime in seconds that the
settings or a caller chose for a throttle, and that ends past the clock. Where both lifetimes of the settings leave room, only
a lock that a caller sets itself crashes. -/
theorem crash_is_of_chosen_lifetime (environment : List (String × String)) (s : Settings)
    (hs : Settings.ofVariables environment = .ok s) (m : Memory) (start : Instant)
    (moves : List (Move { op : Operation // op.Of s } ω)) :
    let p := (Pool.opened m start).run (deployed s ω) moves
    (∀ e ∈ p.history, FirstCentury e.time → ∀ r c, e.what = .crashed r c → ∃ n, r.ttl? = some (.ofSeconds n) ∧
      Instant.endOfClock ≤ e.time.nanos / Duration.nanosPerSecond + n ∧ Chosen s e.op.1 n) ∧
    (Roomy s.throttleFailureTtlSecs → Roomy s.throttleKnownGoodTtlSecs → ∀ e ∈ p.history, FirstCentury e.time →
      ∀ r c, e.what = .crashed r c → ∃ subject seconds, e.op.1 = .signIn (.setLocked subject seconds)) := by
  intro p
  have husable := Settings.usable_of_ofVariables hs
  have hchosen : ∀ e ∈ p.history, FirstCentury e.time → ∀ r c, e.what = .crashed r c → ∃ n, r.ttl? = some (.ofSeconds n) ∧
      Instant.endOfClock ≤ e.time.nanos / Duration.nanosPerSecond + n ∧ Chosen s e.op.1 n := by
    intro e he htime r c hwhat
    have hsends (op : { op : Operation // op.Of s }) :
        ((deployed s ω).program op).Sends (Store.Request.Bears op.1.Lasts) := (op.1.orderly (op.2.lasts husable)).sends
    obtain ⟨hbears, ttl, httl, hpast⟩ := (Pool.sending_run hsends m start moves).crashes e he r c hwhat
    obtain ⟨n, rfl, hend, hn⟩ := (e.op.2.term husable (hbears ttl httl)).chosen_of_past htime hpast
    exact ⟨n, httl, hend, hn⟩
  refine ⟨hchosen, fun hfailure hknown e he htime r c hwhat => ?_⟩
  obtain ⟨n, _, hend, hn⟩ := hchosen e he htime r c hwhat
  exact hn.lock_of_roomy hfailure hknown htime hend

/-- A deployment whose streaks outlast the clock. -/
def endlessEnvironment : List (String × String) := [("TOLLGATE_REDIS_URL", "redis://localhost"),
  ("TOLLGATE_THROTTLE_FAILURE_TTL_SECS", "9223372036854775808")]

def endlessSettings : Settings :=
  { Settings.standard "redis://localhost" with throttleFailureTtlSecs := 9223372036854775808 }

theorem endlessSettings_accepted : Settings.ofVariables endlessEnvironment = .ok endlessSettings := by rfl

/-- A failure is recorded of a subject that nothing is known of. -/
def firstFailure : List (Move { op : Operation // op.Of endlessSettings } Unit) :=
  [.call ⟨.signIn (.recordFailure endlessSettings.services.signIn ⟨"a", "b"⟩), rfl⟩, .store 0, .store 0]

def plainSettings : Settings := Settings.standard "redis://localhost"

/-- A caller locks a subject for as long as the clock lasts. -/
def longLock : List (Move { op : Operation // op.Of plainSettings } Unit) :=
  [.call ⟨.signIn (.setLocked ⟨"a", "b"⟩ 9223372036854775808), trivial⟩, .store 0]

theorem first_failure_crashes :
    (Settings.ofVariables endlessEnvironment = .ok endlessSettings ∧
      ∃ e ∈ ((Pool.opened .empty ⟨0⟩).run (deployed endlessSettings Unit) firstFailure).history,
        ∃ r c, e.what = .crashed r c ∧ FirstCentury e.time ∧ ∃ n, Chosen endlessSettings e.op.1 n) ∧
    Settings.ofVariables [("TOLLGATE_REDIS_URL", "redis://localhost")] = .ok plainSettings ∧
      Roomy plainSettings.throttleFailureTtlSecs ∧ Roomy plainSettings.throttleKnownGoodTtlSecs ∧
      ∃ e ∈ ((Pool.opened .empty ⟨0⟩).run (deployed plainSettings Unit) longLock).history,
        ∃ r c, e.what = .crashed r c ∧ FirstCentury e.time ∧
          ∃ subject seconds, e.op.1 = .signIn (.setLocked subject seconds) := by
  have hbegun : FirstCentury ⟨0⟩ := Nat.zero_le _
  constructor
  · refine ⟨endlessSettings_accepted, _, List.mem_of_getElem? (i := 1) rfl, _, _, rfl, hbegun, ?_⟩
    have hcrash := (crash_is_of_chosen_lifetime endlessEnvironment endlessSettings endlessSettings_accepted .empty ⟨0⟩
      firstFailure).1 _ (List.mem_of_getElem? (i := 1) rfl) hbegun _ _ rfl
    obtain ⟨n, _, _, hn⟩ := hcrash
    exact ⟨n, hn⟩
  · have haccepted : Settings.ofVariables [("TOLLGATE_REDIS_URL", "redis://localhost")] = .ok plainSettings := by rfl
    have hfailure : Roomy plainSettings.throttleFailureTtlSecs := by unfold Roomy; decide
    have hknown : Roomy plainSettings.throttleKnownGoodTtlSecs := by unfold Roomy; decide
    refine ⟨haccepted, hfailure, hknown, _, List.mem_of_getElem? (i := 0) rfl, _, _, rfl, hbegun, ?_⟩
    exact (crash_is_of_chosen_lifetime _ plainSettings haccepted .empty ⟨0⟩ longLock).2 hfailure hknown _
      (List.mem_of_getElem? (i := 0) rfl) hbegun _ _ rfl

/-- Accepted settings can crash what counts a failure. -/
theorem accepted_settings_crash : ¬ ∀ (environment : List (String × String)) (s : Settings),
    Settings.ofVariables environment = .ok s → ∀ moves : List (Move { op : Operation // op.Of s } Unit),
      ∀ e ∈ ((Pool.opened .empty ⟨0⟩).run (deployed s Unit) moves).history, FirstCentury e.time →
        (∀ subject seconds, e.op.1 ≠ .signIn (.setLocked subject seconds)) → ∀ r c, e.what ≠ .crashed r c := by
  intro hclaim
  refine hclaim endlessEnvironment endlessSettings endlessSettings_accepted firstFailure _ (List.mem_of_getElem? (i := 1) rfl)
    (Nat.zero_le _) ?_ _ _ rfl
  rintro subject seconds ⟨⟩

end Services
end Coordination
