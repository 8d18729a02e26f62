import Mathlib.Order.Bounds.Defs
import Coordination.Proofs.SignIn.Requests

/-! # The life of a lock

Whoever locks a subject does so for whole seconds. What is left of a lock is taken in whole milliseconds, the rest dropped,
and then rounded up to seconds. So a check tells of a lock exactly as long as a millisecond of it is left, and the seconds
that it tells bring the attempt to less than a millisecond before the end of the lock.
-/
namespace Coordination.SignIn
open Store (Cell Crash Memory countRequest)

def ended {α : Type} (x : Action Unit α) : Program Unit Unit := x.run.bind fun _ => .done ()

def Call.program : Call → Program Unit Unit
  | .isKnownGood s => ended (SignIn.isKnownGood s)
  | .failureCount s => ended (SignIn.failureCount s)
  | .lockedSeconds s => ended (SignIn.lockedSeconds s)
  | .setLocked s seconds => ended (SignIn.setLocked s seconds)
  | .clear s => ended (SignIn.clear s)
  | .check s => ended (SignIn.check s)
  | .incrementFailures rules s => ended (rules.incrementFailures s)
  | .markKnownGood rules s => ended (rules.markKnownGood s)
  | .recordFailure rules s => ended (rules.recordFailure s)
  | .recordSuccess rules s remember => ended (rules.recordSuccess s remember)

/-- Any calls of any throttles, next to requests that leave the lock of one subject alone. -/
def allCalls (s : Subject) : Traffic Call Unit Unit where
  program := Call.program
  admits _ _ := true
  works _ := true
  aside r := r.leaves s.lockedKey

/-- The request deletes the key, writes it for whole seconds, or leaves it as it is. -/
inductive InSeconds (key : String) : Store.Request → Prop
  | leaves {r : Store.Request} (h : r.leaves key = true) : InSeconds key r
  | delete : InSeconds key (.delete key)
  | set (value : String) (seconds : Nat) : InSeconds key (.set key value (some (.ofSeconds seconds)))

/-- The cell holds a deadline that is whole seconds after some instant that has come. -/
def Timed (now : Instant) (c : Cell) : Prop :=
  ∀ e, c = some e → ∃ (since : Instant) (seconds : Nat),
    since.nanos ≤ now.nanos ∧ countBounds.contains seconds = true ∧ e.expiresAt = some (since.advance (.ofSeconds seconds))

def LockTimed (s : Subject) (m : Memory) (now : Instant) : Prop := ∃ c, m.Shows now s.lockedKey c ∧ Timed now c

variable {s s' : Subject} {rules : Rules} {key : String}

theorem InSeconds.reads {r : Store.Request} (h : r.writes = false) : InSeconds key r := .leaves (Store.Request.leaves_of_reads h)

theorem InSeconds.other {r : Store.Request} (h : r.key? ≠ some key) : InSeconds key r := .leaves (Store.Request.leaves_of_ne h)

theorem InSeconds.unlock (other : String) : InSeconds key (.delete other) := by
  by_cases h : other = key
  · exact h ▸ .delete
  · exact .other fun heq => h (Option.some.inj heq)

theorem InSeconds.lock (other value : String) (seconds : Nat) :
    InSeconds key (.set other value (some (.ofSeconds seconds))) := by
  by_cases h : other = key
  · exact h ▸ .set value seconds
  · exact .other fun heq => h (Option.some.inj heq)

theorem inSeconds_of_sent {r : Store.Request} (h : Sent s' r) : InSeconds s.lockedKey r := by
  cases h with
  | lookKnown => exact .reads rfl
  | lookCount => exact .reads rfl
  | lookLock => exact .reads rfl
  | lock seconds => exact .lock ..
  | count ttl => exact .other fun heq => lockedKey_ne_failuresKey s s' (Option.some.inj heq).symm
  | remember ttl => exact .other fun heq => lockedKey_ne_knownGoodKey s s' (Option.some.inj heq).symm
  | forgetCount => exact .unlock _
  | unlock => exact .unlock _

theorem Call.sends (s : Subject) (call : Call) : call.program.Sends (InSeconds s.lockedKey) := by
  have hended : ∀ {α : Type} {x : Action Unit α}, Action.Strict (Sent call.subject) x →
      (ended x).Sends (InSeconds s.lockedKey) :=
    fun hx => (hx.sends.mono fun _ => inSeconds_of_sent).bind fun _ => trivial
  cases call with
  | isKnownGood s' => exact hended (isKnownGood_strict s')
  | failureCount s' => exact hended (failureCount_strict s')
  | lockedSeconds s' => exact hended (lockedSeconds_strict s')
  | setLocked s' seconds => exact hended (setLocked_strict s' seconds)
  | clear s' => exact hended (clear_strict s')
  | check s' => exact hended (check_strict s')
  | incrementFailures rules s' => exact hended (incrementFailures_strict rules s')
  | markKnownGood rules s' => exact hended (markKnownGood_strict rules s')
  | recordFailure rules s' => exact hended (recordFailure_strict rules s')
  | recordSuccess rules s' remember => exact hended (recordSuccess_strict rules s' remember)

theorem contains_of_ends {now : Instant} {seconds : Nat} (h : (now.add? (.ofSeconds seconds)).isSome) :
    countBounds.contains seconds = true := by
  have hlt : seconds < Instant.endOfClock := by
    refine Nat.lt_of_not_le fun hle => ?_
    rw [Instant.add?_ofSeconds_eq_none_iff.2 (Nat.le_trans hle (Nat.le_add_left ..))] at h
    cases h
  have hhigh : countBounds.high = (Instant.endOfClock : Int) - 1 := rfl
  have hlow : countBounds.low ≤ 0 := by decide
  exact Bounds.contains_iff.2 ⟨by omega, by omega⟩

theorem LockTimed.serve {m : Memory} {now : Instant} {r : Store.Request} (h : LockTimed s m now)
    (hr : InSeconds s.lockedKey r ∨ (allCalls s).aside r = true) : LockTimed s (m.serve now r).2 now := by
  obtain ⟨c, hc, htimed⟩ := h
  rcases hr with hr | haside
  · cases hr with
    | leaves hleaves => exact ⟨c, hc.kept hleaves rfl, htimed⟩
    | delete =>
      obtain ⟨m', hm, hgone, _⟩ := hc.serve (r := .delete s.lockedKey) rfl rfl
      exact ⟨none, hm ▸ hgone, nofun⟩
    | set value seconds =>
      by_cases hzero : seconds = 0
      · have hshort : c.serve now (.set s.lockedKey value (some (.ofSeconds seconds))) =
            (.ok (.error (.invalidArgument .ttlTooShort)), c) := by
          subst hzero
          rfl
        obtain ⟨m', hm, hshows, _⟩ := hc.serve (r := .set s.lockedKey value (some (.ofSeconds seconds))) rfl hshort
        exact ⟨c, hm ▸ hshows, htimed⟩
      · obtain ⟨m', _, ⟨hm, _, hsame⟩ | ⟨hm, hends, hshows⟩⟩ :=
          m.set_cases now s.lockedKey value (millis_ofSeconds_ne hzero)
        · exact ⟨c, hm ▸ hsame c hc, htimed⟩
        · rw [hm]
          refine ⟨_, hshows, ?_⟩
          rintro e ⟨⟩
          exact ⟨now, seconds, Nat.le_refl _, contains_of_ends hends, rfl⟩
  · exact ⟨c, hc.kept haside rfl, htimed⟩

theorem LockTimed.later {m : Memory} {now later : Instant} (h : LockTimed s m now) (hle : now.nanos ≤ later.nanos) :
    LockTimed s m later := by
  obtain ⟨c, hc, htimed⟩ := h
  refine ⟨c, hc.later hle, fun e he => ?_⟩
  obtain ⟨since, seconds, hsince, hrest⟩ := htimed e he
  exact ⟨since, seconds, Nat.le_trans hsince hle, hrest⟩

theorem lockTimed_run {m : Memory} {now : Instant} (h : m.visible? now s.lockedKey = none) (moves : List (Move Call Unit)) :
    LockTimed s ((Pool.opened m now).run (allCalls s) moves).memory ((Pool.opened m now).run (allCalls s) moves).now :=
  Pool.run_keeps (I := LockTimed s) (Call.sends s) LockTimed.serve LockTimed.later ⟨none, Memory.shows_none h, nofun⟩ moves

def toldAt (s : Subject) (m : Memory) (now : Instant) : Except Crash (Except Failure Standing) :=
  ((⟨now, "", 0⟩ : Turn).play (check s).run m []).1

section Told
variable {m : Memory} {now : Instant}

theorem told_of_known (h : (m.visible? now s.knownGoodKey).isSome) : toldAt s m now = .ok (.ok .allowed) := by
  obtain ⟨e, he⟩ := Option.isSome_iff_exists.1 h
  rw [toldAt, run_check, Turn.play_get, he]
  rfl

theorem told_of_unknown (h : m.visible? now s.knownGoodKey = none) {c : Cell} (hc : m.Shows now s.lockedKey c)
    {left : Option Duration} (hleft : (c.serve now (.ttlRemaining s.lockedKey)).1 = .ok (.ok left)) :
    toldAt s m now = .ok (.ok (standingAfter left)) := by
  have hread : (Store.Request.get s.knownGoodKey).leaves s.lockedKey = true := Store.Request.leaves_of_reads rfl
  obtain ⟨m', hm, _, _⟩ := (hc.kept hread rfl).serve (r := .ttlRemaining s.lockedKey) rfl (Prod.ext hleft rfl)
  rw [toldAt, run_check, Turn.play_get, h, Option.map_none, Turn.play_served hm]
  rfl

theorem standingAfter_some {left : Duration} (h : countBounds.contains left.secondsCeil = true) :
    standingAfter (some left) = if left.secondsCeil = 0 then .allowed else .locked left.secondsCeil := by
  rw [standingAfter, Bounds.capped_eq h]
  by_cases hzero : left.secondsCeil = 0
  · rw [if_pos hzero, if_neg (by omega)]
  · rw [if_neg hzero, if_pos (by omega), Int.natAbs_natCast]

theorem secondsCeil_le_iff (d : Duration) (k : Nat) :
    d.secondsCeil ≤ k ↔ d.nanos < (Duration.ofSeconds k).nanos + Duration.nanosPerMilli := by
  simp only [Duration.secondsCeil, Duration.millis, Duration.ofSeconds, Duration.nanosPerSecond, Duration.nanosPerMilli]
  omega

/-- The least number of seconds that leave less than a millisecond of a duration. -/
theorem secondsCeil_isLeast (d : Duration) :
    IsLeast {k : Nat | d.nanos < (Duration.ofSeconds k).nanos + Duration.nanosPerMilli} d.secondsCeil :=
  ⟨(secondsCeil_le_iff d _).1 (Nat.le_refl _), fun k hk => (secondsCeil_le_iff d k).2 hk⟩

theorem contains_secondsCeil {since : Instant} {seconds : Nat} (hsince : since.nanos ≤ now.nanos)
    (hseconds : countBounds.contains seconds = true) :
    countBounds.contains ((since.advance (.ofSeconds seconds)).timeLeft now).secondsCeil = true := by
  have hle : ((since.advance (.ofSeconds seconds)).timeLeft now).secondsCeil ≤ seconds := by
    rw [secondsCeil_le_iff]
    simp only [Instant.timeLeft, Instant.advance, Duration.nanosPerMilli]
    omega
  have hbounds := Bounds.contains_iff.1 hseconds
  have hlow : countBounds.low ≤ 0 := by decide
  exact Bounds.contains_iff.2 ⟨by omega, by omega⟩

theorem told_of_timed (h : LockTimed s m now) (hknown : m.visible? now s.knownGoodKey = none) :
    m.visible? now s.lockedKey = none ∧ toldAt s m now = .ok (.ok .allowed) ∨
      ∃ value deadline, m.visible? now s.lockedKey = some ⟨value, some deadline⟩ ∧ now.nanos < deadline.nanos ∧
        toldAt s m now = .ok (.ok (if (deadline.timeLeft now).secondsCeil = 0 then .allowed
          else .locked (deadline.timeLeft now).secondsCeil)) := by
  obtain ⟨c, hc, htimed⟩ := h
  have hseen := hc now (Nat.le_refl _)
  cases c with
  | none => exact .inl ⟨hseen, told_of_unknown hknown hc rfl⟩
  | some e =>
    obtain ⟨since, seconds, hsince, hseconds, hdeadline⟩ := htimed e rfl
    obtain ⟨value, expiresAt⟩ := e
    dsimp only at hdeadline
    subst hdeadline
    have htold := told_of_unknown hknown hc (Cell.serve_ttlRemaining ..)
    rw [Cell.live_until] at hseen
    by_cases hlive : now.nanos < (since.advance (.ofSeconds seconds)).nanos
    · rw [if_pos hlive] at hseen htold
      rw [standingAfter_some (contains_secondsCeil hsince hseconds)] at htold
      exact .inr ⟨value, _, hseen, hlive, htold⟩
    · rw [if_neg hlive] at hseen htold
      exact .inl ⟨hseen, htold⟩

end Told

/-- At any instant after any calls, a check tells of a lock exactly if the subject is not known good and at least a
millisecond is left of its lock. What it tells is the least number of seconds after which less than a millisecond is left. -/
theorem check_tells_lock (s : Subject) (m : Memory) (start : Instant) (hlocked : m.visible? start s.lockedKey = none)
    (moves : List (Move Call Unit)) :
    let p := (Pool.opened m start).run (allCalls s) moves
    (toldAt s p.memory p.now = .ok (.ok .allowed) ∨ ∃ k, toldAt s p.memory p.now = .ok (.ok (.locked k))) ∧
      ∀ k : Nat, toldAt s p.memory p.now = .ok (.ok (.locked k)) ↔
        p.memory.visible? p.now s.knownGoodKey = none ∧
          ∃ value deadline, p.memory.visible? p.now s.lockedKey = some ⟨value, some deadline⟩ ∧
            p.now.nanos + Duration.nanosPerMilli ≤ deadline.nanos ∧
            IsLeast {k : Nat | (deadline.timeLeft p.now).nanos < (Duration.ofSeconds k).nanos + Duration.nanosPerMilli} k := by
  intro p
  have htimed : LockTimed s p.memory p.now := lockTimed_run hlocked moves
  cases hknown : p.memory.visible? p.now s.knownGoodKey with
  | some e =>
    have htold := told_of_known (Option.isSome_of_eq_some hknown)
    rw [htold]
    exact ⟨.inl rfl, fun k => ⟨nofun, nofun⟩⟩
  | none =>
    rcases told_of_timed htimed hknown with ⟨hseen, htold⟩ | ⟨value, deadline, hseen, hlive, htold⟩
    · rw [htold, hseen]
      exact ⟨.inl rfl, fun k => ⟨nofun, nofun⟩⟩
    · have hleast := secondsCeil_isLeast (deadline.timeLeft p.now)
      have hshort := secondsCeil_le_iff (deadline.timeLeft p.now) 0
      simp only [Instant.timeLeft, Duration.ofSeconds, Nat.zero_mul] at hshort
      rw [htold, hseen]
      by_cases hzero : (deadline.timeLeft p.now).secondsCeil = 0
      · rw [if_pos hzero]
        refine ⟨.inl rfl, fun k => ⟨nofun, ?_⟩⟩
        rintro ⟨_, _, _, hfound, hmilli, _⟩
        cases hfound
        have := hshort.1 (Nat.le_of_eq hzero)
        omega
      · rw [if_neg hzero]
        refine ⟨.inr ⟨_, rfl⟩, fun k => ⟨?_, ?_⟩⟩
        · rintro ⟨⟩
          have hmilli : ¬ deadline.nanos - p.now.nanos < 0 + Duration.nanosPerMilli :=
            fun hlt => hzero (Nat.le_zero.1 (hshort.2 hlt))
          exact ⟨rfl, value, deadline, rfl, by omega, hleast⟩
        · rintro ⟨_, _, _, hfound, _, hk⟩
          cases hfound
          rw [Nat.le_antisymm (hk.2 hleast.1) (hleast.2 hk.1)]

/-- Half a millisecond over a second is left of a lock for two seconds. -/
def nearlyHalf : List (Move Call Unit) := [.call (.setLocked ⟨"a", "b"⟩ 2), .store 0, .advance ⟨999500000⟩]

theorem second_told_of_more :
    let s : Subject := ⟨"a", "b"⟩
    let p := (Pool.opened .empty ⟨0⟩).run (allCalls s) nearlyHalf
    Memory.empty.visible? ⟨0⟩ s.lockedKey = none ∧ p.now = ⟨999500000⟩ ∧
      p.memory.visible? p.now s.lockedKey = some ⟨"2", some ⟨2000000000⟩⟩ ∧
      toldAt s p.memory p.now = .ok (.ok (.locked 1)) := by
  intro s p
  have hnow : p.now = ⟨999500000⟩ := by decide +kernel
  have hseen : p.memory.visible? p.now s.lockedKey = some ⟨"2", some ⟨2000000000⟩⟩ := by decide +kernel
  have hunknown : p.memory.visible? p.now s.knownGoodKey = none := by decide +kernel
  refine ⟨rfl, hnow, hseen, ((check_tells_lock s .empty ⟨0⟩ rfl nearlyHalf).2 1).2 ⟨hunknown, "2", ⟨2000000000⟩, hseen, ?_⟩⟩
  have hleft : ((⟨2000000000⟩ : Instant).timeLeft p.now).secondsCeil = 1 := by
    rw [hnow]
    decide
  rw [← hleft]
  exact ⟨by rw [hnow]; decide, secondsCeil_isLeast _⟩

/-- Half a millisecond before its end a lock lets the attempt through. -/
theorem lock_lapses_early :
    ¬ ∀ (s : Subject) (m : Memory) (start : Instant) (moves : List (Move Call Unit)),
      m.visible? start s.lockedKey = none →
      let p := (Pool.opened m start).run (allCalls s) moves
      ∀ k : Nat, toldAt s p.memory p.now = .ok (.ok (.locked k)) ↔
        p.memory.visible? p.now s.knownGoodKey = none ∧
          ∃ value deadline, p.memory.visible? p.now s.lockedKey = some ⟨value, some deadline⟩ ∧
            IsLeast {k : Nat | (deadline.timeLeft p.now).nanos ≤ (Duration.ofSeconds k).nanos} k := by
  intro hclaim
  let s : Subject := ⟨"a", "b"⟩
  let p := (Pool.opened .empty ⟨0⟩).run (allCalls s) [.call (.setLocked s 1), .store 0, .advance ⟨999500000⟩]
  have hnow : p.now = ⟨999500000⟩ := by decide +kernel
  have hseen : p.memory.visible? p.now s.lockedKey = some ⟨"1", some ⟨1000000000⟩⟩ := by decide +kernel
  have hunknown : p.memory.visible? p.now s.knownGoodKey = none := by decide +kernel
  have hleft : (⟨1000000000⟩ : Instant).timeLeft p.now = ⟨500000⟩ := by
    rw [hnow]
    decide
  have hleast : IsLeast {k : Nat | ((⟨1000000000⟩ : Instant).timeLeft p.now).nanos ≤ (Duration.ofSeconds k).nanos} 1 := by
    rw [hleft]
    refine ⟨show 500000 ≤ (Duration.ofSeconds 1).nanos by decide, fun k hk => Nat.pos_of_ne_zero ?_⟩
    rintro rfl
    exact absurd hk (show ¬ 500000 ≤ (Duration.ofSeconds 0).nanos by decide)
  have hlocked : toldAt s p.memory p.now = .ok (.ok (.locked 1)) :=
    (hclaim s .empty ⟨0⟩ _ rfl 1).2 ⟨hunknown, "1", ⟨1000000000⟩, hseen, hleast⟩
  rcases told_of_timed (lockTimed_run rfl _) hunknown with ⟨hgone, _⟩ | ⟨value, deadline, hfound, _, htold⟩
  · cases hseen.symm.trans hgone
  · cases hseen.symm.trans hfound
    rw [hleft, if_pos (show (⟨500000⟩ : Duration).secondsCeil = 0 by decide)] at htold
    cases hlocked.symm.trans htold

end Coordination.SignIn
