/-! # Durations and instants

Durations and instants of the store's clock are whole numbers of nanoseconds. The clock itself ends
where its seconds leave the signed 64-bit range, so adding a duration to an instant may fail.
-/
namespace Coordination

/-- A span of time in nanoseconds. -/
structure Duration where
  nanos : Nat
deriving DecidableEq, Repr, Inhabited

namespace Duration

def nanosPerMilli : Nat := 1000000

def nanosPerSecond : Nat := 1000000000

def zero : Duration := ⟨0⟩

def ofMillis (n : Nat) : Duration := ⟨n * nanosPerMilli⟩

def ofSeconds (n : Nat) : Duration := ⟨n * nanosPerSecond⟩

def isZero (d : Duration) : Bool := d.nanos == 0

/-- Whole milliseconds, what is left over is dropped. -/
def millis (d : Duration) : Nat := d.nanos / nanosPerMilli

/-- Whole seconds, what is left over is dropped. -/
def seconds (d : Duration) : Nat := d.nanos / nanosPerSecond

/-- The nanoseconds past the last whole second. -/
def subsecond (d : Duration) : Nat := d.nanos % nanosPerSecond

/-- The fewest seconds that cover the whole milliseconds of a duration. -/
def secondsCeil (d : Duration) : Nat := (d.millis + 999) / 1000

/-- The shorter of two durations. -/
def shorter (a b : Duration) : Duration := if a.nanos ≤ b.nanos then a else b

@[simp] theorem millis_ofMillis (n : Nat) : (ofMillis n).millis = n := by
  simp [millis, ofMillis, nanosPerMilli]

@[simp] theorem seconds_ofSeconds (n : Nat) : (ofSeconds n).seconds = n := by
  simp [seconds, ofSeconds, nanosPerSecond]

theorem seconds_ofMillis (n : Nat) : (ofMillis n).seconds = n / 1000 := by
  simp only [seconds, ofMillis, nanosPerMilli, nanosPerSecond]
  omega

@[simp] theorem secondsCeil_ofSeconds (n : Nat) : (ofSeconds n).secondsCeil = n := by
  simp only [secondsCeil, millis, ofSeconds, nanosPerSecond, nanosPerMilli]
  omega

theorem ofSeconds_mono {m n : Nat} (h : m ≤ n) : (ofSeconds m).nanos ≤ (ofSeconds n).nanos :=
  Nat.mul_le_mul_right nanosPerSecond h

theorem nanos_shorter (a b : Duration) : (a.shorter b).nanos = min a.nanos b.nanos := by
  unfold shorter
  split <;> omega

theorem secondsCeil_mono {a b : Duration} (h : a.nanos ≤ b.nanos) : a.secondsCeil ≤ b.secondsCeil := by
  have hmillis : a.millis ≤ b.millis := Nat.div_le_div_right h
  unfold secondsCeil
  omega

end Duration

/-- A reading of the store's clock, in nanoseconds since it started. -/
structure Instant where
  nanos : Nat
deriving DecidableEq, Repr, Inhabited

namespace Instant

/-- The first second that the clock cannot hold. -/
def endOfClock : Nat := Nat.pow 2 63

/-- The instant `d` after `t`, if the clock can hold it. -/
def add? (t : Instant) (d : Duration) : Option Instant :=
  if (t.nanos + d.nanos) / Duration.nanosPerSecond < endOfClock then some ⟨t.nanos + d.nanos⟩ else none

/-- The clock moved on by `d`. -/
def advance (t : Instant) (d : Duration) : Instant := ⟨t.nanos + d.nanos⟩

/-- What is left at `now` of the time up to `t`, nothing once `t` has come. -/
def timeLeft (t now : Instant) : Duration := ⟨t.nanos - now.nanos⟩

theorem add?_eq_some {t u : Instant} {d : Duration} (h : t.add? d = some u) :
    u.nanos = t.nanos + d.nanos := by
  unfold add? at h
  split at h
  · cases h; rfl
  · cases h

theorem add?_eq_advance {t : Instant} {d : Duration} (h : (t.add? d).isSome) : t.add? d = some (t.advance d) := by
  unfold add? at h ⊢
  split at h
  · next hfits => rw [if_pos hfits, advance]
  · cases h

theorem add?_eq_none_iff {t : Instant} {d : Duration} :
    t.add? d = none ↔ endOfClock ≤ (t.nanos + d.nanos) / Duration.nanosPerSecond := by
  rw [add?]
  split
  · next hfits => exact ⟨fun h => absurd h (Option.some_ne_none _), fun hle => absurd hfits (Nat.not_lt.2 hle)⟩
  · next hpast => exact ⟨fun _ => Nat.not_lt.1 hpast, fun _ => rfl⟩

theorem add?_ofSeconds_eq_none_iff {t : Instant} {n : Nat} :
    t.add? (.ofSeconds n) = none ↔ endOfClock ≤ t.nanos / Duration.nanosPerSecond + n := by
  rw [add?_eq_none_iff, ← Nat.add_mul_div_right _ _ (by decide : 0 < Duration.nanosPerSecond)]
  rfl

@[simp] theorem timeLeft_advance (t : Instant) (d : Duration) : (t.advance d).timeLeft t = d := by
  simp [timeLeft, advance]

theorem lt_advance (t : Instant) {d : Duration} (h : d.millis ≠ 0) : t.nanos < (t.advance d).nanos := by
  show t.nanos < t.nanos + d.nanos
  simp only [Duration.millis, Duration.nanosPerMilli] at h
  omega

end Instant

end Coordination
