import Coordination.Proofs.SignIn.Streak

/-! # What a lock is backed by

A lock is set by a failure that takes the count of its streak past the free attempts. The streak ends at an instant that
its first failure has set, the lock at one that the failure sets that locks. Until the streak ends the count stays past the
free attempts for as long as the lock is there. A lock that outlives its streak is backed by nothing: the next failures
begin a streak of their own, and the first of them that locks replaces the lock.
-/
namespace Coordination.SignIn
open Store (Cell Crash Entry Memory countRequest)

/-- The count of a streak and the instant at which it ends. -/
structure Tally where
  count : Int
  deadline : Instant
  bounded : Memory.counterBounds.contains count = true

namespace Tally

def entry (t : Tally) : Entry := ⟨toString t.count, some t.deadline⟩

def cell (t? : Option Tally) : Cell := t?.map entry

def RunsAt (now : Instant) (t : Tally) : Prop := now.nanos < t.deadline.nanos

instance (now : Instant) (t : Tally) : Decidable (t.RunsAt now) := Nat.decLt ..

def countAt (now : Instant) : Option Tally → Int
  | none => 0
  | some t => if t.RunsAt now then t.count else 0

theorem countAt_of_runs {t : Tally} {now : Instant} (h : t.RunsAt now) : countAt now (some t) = t.count := if_pos h

theorem countAt_of_over {t : Tally} {now : Instant} (h : ¬ t.RunsAt now) : countAt now (some t) = 0 := if_neg h

theorem live_entry (t : Tally) (now : Instant) :
    Cell.live (cell (some t)) now = if t.RunsAt now then some t.entry else none :=
  Cell.live_until ..

theorem live_cell_of_over {t? : Option Tally} {now : Instant} (h : ∀ t ∈ t?, ¬ t.RunsAt now) :
    Cell.live (cell t?) now = none := by
  cases t? with
  | none => rfl
  | some t => rw [live_entry, if_neg (h t rfl)]

/-- The tally after one more failure. -/
inductive Raised (rules : Rules) (now : Instant) : Option Tally → Tally → Prop
  | goesOn {t : Tally} (h : t.RunsAt now) (hnext : Memory.counterBounds.contains (t.count + 1) = true) :
    Raised rules now (some t) ⟨t.count + 1, t.deadline, hnext⟩
  | begins {t? : Option Tally} (h : ∀ t ∈ t?, ¬ t.RunsAt now) :
    Raised rules now t? ⟨1, now.advance rules.failureTtl, Store.counterBounds_one⟩

theorem Raised.runs {rules : Rules} {now : Instant} {t? : Option Tally} {u : Tally} (hlong : rules.failureTtl.millis ≠ 0)
    (h : Raised rules now t? u) : u.RunsAt now := by
  cases h with
  | goesOn hruns => exact hruns
  | begins => exact now.lt_advance hlong

theorem serve_count (rules : Rules) (t? : Option Tally) (now : Instant) (key : String) :
    (∃ o, (cell t?).serve now (countRequest key rules.failureTtl) = (o, cell t?) ∧ ∀ n, o ≠ .ok (.ok n)) ∨
      ∃ u, (cell t?).serve now (countRequest key rules.failureTtl) = (.ok (.ok u.count), cell (some u)) ∧
        Raised rules now t? u ∧ u.RunsAt now := by
  by_cases hlong : rules.failureTtl.millis = 0
  · refine .inl ⟨.ok (.error (.invalidArgument .ttlTooShort)), ?_, fun n => by simp⟩
    rw [Cell.serve, show (countRequest key rules.failureTtl).checkTtl = _ from if_pos hlong]
  · by_cases hover : ∀ t ∈ t?, ¬ t.RunsAt now
    · rw [Cell.serve_count_of_free hlong key (live_cell_of_over hover)]
      cases hends : now.add? rules.failureTtl with
      | none => exact .inl ⟨_, rfl, fun n => by simp⟩
      | some deadline =>
        have hadvance := Instant.add?_eq_advance (hends ▸ rfl : (now.add? rules.failureTtl).isSome)
        obtain rfl : deadline = now.advance rules.failureTtl := Option.some.inj (hends.symm.trans hadvance)
        exact .inr ⟨_, rfl, .begins hover, Raised.runs hlong (.begins hover)⟩
    · cases t? with
      | none => exact absurd (by simp) hover
      | some t =>
        have hruns : t.RunsAt now := by simpa using hover
        have hlive := (t.live_entry now).trans (if_pos hruns)
        rw [Cell.serve_count_of_live hlong key hlive t.bounded]
        cases hnext : Memory.counterBounds.contains (t.count + 1) with
        | false => exact .inl ⟨_, rfl, fun n => by simp⟩
        | true => exact .inr ⟨_, rfl, .goesOn hruns hnext, hruns⟩

end Tally

def countIn (s : Subject) : Option String → Except Failure Int
  | none => .ok 0
  | some text => countOf s text

theorem run_failureCount {ω : Type} (s : Subject) : (failureCount s : Action ω Int).run =
    .ask (.store (.get s.failuresKey)) fun reply => .done (reply.bind (countIn s)) := by
  refine (Action.run_call_bind ..).trans ?_
  congr
  funext reply
  rcases reply with failure | _ | text
  · rfl
  · rfl
  · show (Action.ofExcept (countOf s text)).run = .done (countOf s text)
    cases countOf s text <;> rfl

theorem countOf_toString (s : Subject) {n : Int} (h : Memory.counterBounds.contains n = true) :
    countOf s (toString n) = .ok n := by
  have hparse : Text.Integer.parse countBounds (toString n) = .ok n :=
    Text.Integer.parse_toString Store.counterBounds_zero h
  rw [countOf, hparse]

theorem play_failureCount {s : Subject} {x : Session} {t? : Option Tally}
    (h : x.memory.Shows x.now s.failuresKey (Tally.cell t?)) :
    (x.play (failureCount s).run).1 = .ok (.ok (Tally.countAt x.now t?)) := by
  have hvisible : x.memory.visible? x.turn.now s.failuresKey = _ := h x.now (Nat.le_refl _)
  rw [Session.play, run_failureCount, Turn.play_get, hvisible, Turn.play_done]
  cases t? with
  | none => rfl
  | some t =>
    rw [Tally.live_entry]
    by_cases hruns : t.RunsAt x.now
    · rw [if_pos hruns, Tally.countAt_of_runs hruns]
      exact congrArg Except.ok (countOf_toString s t.bounded)
    · rw [if_neg hruns, Tally.countAt_of_over hruns]
      rfl

/-- The lock that a failure sets that comes to a count. -/
def Rules.lockEntry (rules : Rules) (failures : Int) (now : Instant) : Entry :=
  ⟨toString (rules.policy.lockout failures), some (now.advance (.ofSeconds (rules.policy.lockout failures)))⟩

/-- What a failure makes of the tally and the lock. Without a lock for the new count the old lock stays, and so it does if
the clock cannot hold the end of the new one. -/
inductive Failed (rules : Rules) (now : Instant) (t? : Option Tally) (lock : Cell) :
    Except Crash (Except Failure FailureOutcome) → Option Tally → Cell → Prop
  | kept (o : Except Crash (Except Failure FailureOutcome)) : Failed rules now t? lock o t? lock
  | counted {o : Except Crash (Except Failure FailureOutcome)} {u : Tally} (hraised : Tally.Raised rules now t? u)
    (hlock : rules.policy.lockout u.count = 0 ∨ ∃ c, o = .error c) : Failed rules now t? lock o (some u) lock
  | locked {o : Except Crash (Except Failure FailureOutcome)} {u : Tally} (hraised : Tally.Raised rules now t? u)
    (hruns : u.RunsAt now) (hlock : rules.policy.lockout u.count ≠ 0) :
    Failed rules now t? lock o (some u) (some (rules.lockEntry u.count now))

section Calls
variable {rules : Rules} {s : Subject} {t : Turn} {m : Memory} {t? : Option Tally} {lock : Cell}

theorem play_locking (hlock : m.Shows t.now s.lockedKey lock) {u : Tally} (hraised : Tally.Raised rules t.now t? u)
    (hruns : u.RunsAt t.now) (hcounts : m.Shows t.now s.failuresKey (Tally.cell (some u))) :
    ∃ o m' lock', t.play (afterCount rules s (.ok u.count)) m [] = (o, m', []) ∧
      Failed rules t.now t? lock o (some u) lock' ∧ m'.Shows t.now s.failuresKey (Tally.cell (some u)) ∧
      m'.Shows t.now s.lockedKey lock' := by
  rw [afterCount]
  by_cases hzero : rules.policy.lockout u.count = 0
  · rw [if_pos hzero]
    exact ⟨_, m, lock, rfl, .counted hraised (.inl hzero), hcounts, hlock⟩
  · rw [if_neg hzero]
    obtain ⟨m', hframe, ⟨hm, _, hkept⟩ | ⟨hm, _, hset⟩⟩ :=
      m.set_cases t.now s.lockedKey (toString (rules.policy.lockout u.count)) (millis_ofSeconds_ne hzero)
    · exact ⟨_, m', lock, Turn.play_crashed hm, .counted hraised (.inr ⟨_, rfl⟩),
        hframe.shows (lockedKey_ne_failuresKey s s).symm hcounts, hkept _ hlock⟩
    · exact ⟨_, m', _, Turn.play_served hm, .locked hraised hruns hzero,
        hframe.shows (lockedKey_ne_failuresKey s s).symm hcounts, hset⟩

theorem play_recordFailure (rules : Rules) (s : Subject) (hcounts : m.Shows t.now s.failuresKey (Tally.cell t?))
    (hlock : m.Shows t.now s.lockedKey lock) :
    ∃ o m' t?' lock', t.play (rules.recordFailure s).run m [] = (o, m', []) ∧ Failed rules t.now t? lock o t?' lock' ∧
      m'.Shows t.now s.failuresKey (Tally.cell t?') ∧ m'.Shows t.now s.lockedKey lock' := by
  have hread : ∀ {key c}, m.Shows t.now key c → (m.serve t.now (.get s.knownGoodKey)).2.Shows t.now key c :=
    fun h => Memory.serve_shows_other h (.inr rfl)
  rw [run_recordFailure, Turn.play_get]
  cases m.visible? t.now s.knownGoodKey with
  | some e => exact ⟨_, _, t?, lock, rfl, .kept _, hread hcounts, hread hlock⟩
  | none =>
    have hleaves : (countRequest s.failuresKey rules.failureTtl).leaves s.lockedKey = true :=
      Store.Request.leaves_of_ne fun h => lockedKey_ne_failuresKey s s (Option.some.inj h).symm
    rw [Option.map_none, afterKnown]
    rcases Tally.serve_count rules t? t.now s.failuresKey with ⟨o, hserve, hnot⟩ | ⟨u, hserve, hraised, hruns⟩
    · obtain ⟨m', hm, hshows, _⟩ := (hread hcounts).serve (Store.countRequest_key ..) hserve
      have hlock' := (hread hlock).kept hleaves hm
      rcases o with c | failure | n
      · exact ⟨_, m', t?, lock, Turn.play_crashed hm, .kept _, hshows, hlock'⟩
      · exact ⟨_, m', t?, lock, Turn.play_served hm, .kept _, hshows, hlock'⟩
      · exact absurd rfl (hnot n)
    · obtain ⟨m', hm, hshows, _⟩ := (hread hcounts).serve (Store.countRequest_key ..) hserve
      rw [Turn.play_served hm]
      obtain ⟨o, m'', lock', hplay, hfailed, hshows'', hlock''⟩ :=
        play_locking ((hread hlock).kept hleaves hm) hraised hruns hshows
      exact ⟨o, m'', some u, lock', hplay, hfailed, hshows'', hlock''⟩

theorem play_recordSuccess (rules : Rules) (s : Subject) (remember : Bool) (t : Turn) (m : Memory) :
    ∃ o m' rest, t.play (rules.recordSuccess s remember).run m [] = (o, m', rest) ∧ m'.Shows t.now s.failuresKey none ∧
      m'.Shows t.now s.lockedKey none := by
  have hdelete : ∀ (c : Cell) (key : String), c.serve t.now (.delete key) = (.ok (.ok (c.live t.now).isSome), none) :=
    fun _ _ => rfl
  obtain ⟨m₁, hm₁, hcounts, _⟩ := (m.shows_find? t.now s.failuresKey).serve rfl (hdelete _ _)
  obtain ⟨m₂, hm₂, hlock, hframe⟩ := (m₁.shows_find? t.now s.lockedKey).serve rfl (hdelete _ _)
  rw [run_recordSuccess, Turn.play_served hm₁]
  dsimp only
  rw [Turn.play_served hm₂]
  dsimp only
  -- What comes after the records are gone is the mark of a known subject.
  generalize hrest : (if remember then _ else _ : Program Unit (Except Failure Unit)) = rest
  have havoids : ∀ key, key ≠ s.knownGoodKey → rest.Avoids key := by
    intro key hne
    subst hrest
    cases remember with
    | false => trivial
    | true =>
      refine ⟨fun r hr => ?_, fun _ => trivial⟩
      cases hr
      exact Store.Request.leaves_of_ne fun h => hne (Option.some.inj h).symm
  exact ⟨_, _, _, rfl,
    Turn.ensures_shows (havoids _ (failuresKey_ne_knownGoodKey s s))
      (hframe.shows (lockedKey_ne_failuresKey s s).symm hcounts) [],
    Turn.ensures_shows (havoids _ (lockedKey_ne_knownGoodKey s s)) hlock []⟩

end Calls

/-- Some call of the session crashed. -/
def Session.Crashed (x : Session) : Prop := ∃ a ∈ x.past, a.isDone = false

/-- A failure of a run: the steps before and after it, the count it came to and the end of its streak. -/
structure Locking where
  before : List Step
  after : List Step
  count : Int
  deadline : Instant

namespace Locking

/-- The session when the failure has come to its end. -/
def moment (l : Locking) (rules : Rules) (s : Subject) (x : Session) : Session := x.run rules s (l.before ++ [.call .fail])

/-- The failure is one of the run, its count is one that locks and is recorded when it ends, and no success follows. -/
structure In (l : Locking) (rules : Rules) (s : Subject) (x : Session) (steps : List Step) : Prop where
  steps : steps = l.before ++ .call .fail :: l.after
  unforgiven : ∀ remember, .call (.succeed remember) ∉ l.after
  locks : rules.policy.lockout l.count ≠ 0
  recorded : (l.moment rules s x).memory.visible? (l.moment rules s x).now s.failuresKey =
    some ⟨toString l.count, some l.deadline⟩

/-- The lock that the failure has set. -/
def lock (l : Locking) (rules : Rules) (s : Subject) (x : Session) : Entry :=
  rules.lockEntry l.count (l.moment rules s x).now

theorem In.append {l : Locking} {rules : Rules} {s : Subject} {x : Session} {steps : List Step}
    (h : l.In rules s x steps) {step : Step} (hstep : ∀ remember, step ≠ .call (.succeed remember)) :
    In { l with after := l.after ++ [step] } rules s x (steps ++ [step]) where
  steps := by rw [h.steps, List.append_assoc, List.cons_append]
  unforgiven := by
    intro remember hmem
    rcases List.mem_append.1 hmem with hmem | hmem
    · exact h.unforgiven remember hmem
    · exact hstep remember (List.mem_singleton.1 hmem).symm
  locks := h.locks
  recorded := h.recorded

end Locking

/-- A count that locks is past the free attempts. -/
theorem Policy.lt_of_lockout_ne_zero {policy : Policy} {n : Int} (h : policy.lockout n ≠ 0) : policy.freeAttempts < n := by
  refine Int.not_le.1 fun hle => h ?_
  rw [lockout, delayFor, if_pos hle]
  rfl

theorem Policy.lockout_ne_zero {policy : Policy} {n k : Int} (hn : policy.lockout n ≠ 0) (hk : policy.freeAttempts < k) :
    policy.lockout k ≠ 0 := by
  have hsteps : ∀ i < 6, 0 < escalation.getD i 0 := by decide
  have hstep := hsteps (min (k - policy.freeAttempts - 1).toNat 5) (by omega)
  have hlength : escalation.length - 1 = 5 := rfl
  have hlong : ∀ d : Duration, d.secondsCeil ≠ 0 ↔ 1000000 ≤ d.nanos := by
    intro d
    simp only [Duration.secondsCeil, Duration.millis, Duration.nanosPerMilli]
    omega
  rw [lockout, delayFor_of_lt policy (lt_of_lockout_ne_zero hn), hlong, Duration.nanos_shorter] at hn
  rw [lockout, delayFor_of_lt policy hk, hlong, Duration.nanos_shorter, hlength, Duration.ofSeconds,
    Duration.nanosPerSecond]
  dsimp only
  omega

/-- What the failures come to since one of them has locked that was the `n`th of a streak: the streak goes on, or it is over
and those of a later one have not locked. -/
inductive Since (rules : Rules) (n : Int) (deadline now : Instant) (crashed : Prop) : Option Tally → Prop
  | same {t : Tally} (hcount : n ≤ t.count) (hdeadline : t.deadline = deadline) : Since rules n deadline now crashed (some t)
  | ended {t? : Option Tally} (hover : deadline.nanos ≤ now.nanos)
    (hfree : crashed ∨ ∀ t ∈ t?, t.count ≤ rules.policy.freeAttempts) : Since rules n deadline now crashed t?

namespace Since
variable {rules : Rules} {n : Int} {deadline now : Instant} {crashed crashed' : Prop} {t? : Option Tally}

theorem mono {later : Instant} (h : Since rules n deadline now crashed t?) (hnow : now.nanos ≤ later.nanos)
    (hcrashed : crashed → crashed') : Since rules n deadline later crashed' t? := by
  cases h with
  | same hcount hdeadline => exact .same hcount hdeadline
  | ended hover hfree => exact .ended (Nat.le_trans hover hnow) (hfree.imp_left hcrashed)

theorem raised (h : Since rules n deadline now crashed t?) (hlocks : rules.policy.lockout n ≠ 0) {u : Tally}
    (hraised : Tally.Raised rules now t? u) (hlock : rules.policy.lockout u.count = 0 ∨ crashed') :
    Since rules n deadline now crashed' (some u) := by
  have hfree : crashed' ∨ ∀ t ∈ some u, t.count ≤ rules.policy.freeAttempts := by
    refine hlock.symm.imp_right ?_
    rintro hzero t ⟨⟩
    exact Int.not_lt.1 fun hlt => Policy.lockout_ne_zero hlocks hlt hzero
  cases h with
  | ended hover _ => exact .ended hover hfree
  | @same t hcount hdeadline =>
    cases hraised with
    | goesOn hruns hnext => exact .same (Int.le_trans hcount (Int.le_add_one (Int.le_refl _))) hdeadline
    | begins hends =>
      have hover : ¬ t.RunsAt now := hends t rfl
      rw [Tally.RunsAt, hdeadline] at hover
      exact .ended (Nat.le_of_not_lt hover) hfree

/-- The count stays past the one that locked up to the end of its streak, and is within the free attempts from then on. -/
theorem countAt (h : Since rules n deadline now crashed t?) :
    (now.nanos < deadline.nanos → n ≤ Tally.countAt now t?) ∧
      (deadline.nanos ≤ now.nanos → ¬ crashed → Tally.countAt now t? ≤ rules.policy.freeAttempts) := by
  have hzero : (0 : Int) ≤ rules.policy.freeAttempts := Int.natCast_nonneg _
  cases h with
  | @same t hcount hdeadline =>
    subst hdeadline
    refine ⟨fun hruns => ?_, fun hover _ => ?_⟩
    · rwa [Tally.countAt_of_runs hruns]
    · rwa [Tally.countAt_of_over (Nat.not_lt_of_le hover)]
  | ended hover hfree =>
    refine ⟨fun hruns => absurd hruns (Nat.not_lt_of_le hover), fun _ hdone => ?_⟩
    have hfree := hfree.resolve_left hdone
    cases t? with
    | none => exact hzero
    | some t =>
      by_cases hruns : t.RunsAt now
      · rw [Tally.countAt_of_runs hruns]
        exact hfree t rfl
      · rwa [Tally.countAt_of_over hruns]

end Since

/-- There is no lock, or a failure of the run has set it. -/
def Backed (rules : Rules) (s : Subject) (x : Session) (steps : List Step) : Prop :=
  let y := x.run rules s steps
  ∃ t? lock, y.memory.Shows y.now s.failuresKey (Tally.cell t?) ∧ y.memory.Shows y.now s.lockedKey lock ∧
    (lock = none ∨ ∃ l : Locking, l.In rules s x steps ∧ lock = some (l.lock rules s x) ∧
      Since rules l.count l.deadline y.now y.Crashed t?)

theorem Session.run_concat (rules : Rules) (s : Subject) (x : Session) (steps : List Step) (step : Step) :
    x.run rules s (steps ++ [step]) = (x.run rules s steps).step rules s step := List.foldl_append

theorem Session.Crashed.step {x : Session} (rules : Rules) (s : Subject) (step : Step) (h : x.Crashed) :
    (x.step rules s step).Crashed := by
  obtain ⟨a, ha, hdone⟩ := h
  exact ⟨a, Session.past_subset_step rules s x step ha, hdone⟩

namespace Backed
variable {rules : Rules} {s : Subject} {x : Session} {steps : List Step}

theorem untouched (h : Backed rules s x steps) {step : Step} (hstep : ∀ remember, step ≠ .call (.succeed remember))
    (hnow : (x.run rules s steps).now.nanos ≤ ((x.run rules s steps).step rules s step).now.nanos)
    (hkept : ∀ key c, key = s.failuresKey ∨ key = s.lockedKey →
      (x.run rules s steps).memory.Shows (x.run rules s steps).now key c →
      ((x.run rules s steps).step rules s step).memory.Shows ((x.run rules s steps).step rules s step).now key c) :
    Backed rules s x (steps ++ [step]) := by
  obtain ⟨t?, lock, hcounts, hlock, hset⟩ := h
  rw [Backed, Session.run_concat]
  refine ⟨t?, lock, hkept _ _ (.inl rfl) hcounts, hkept _ _ (.inr rfl) hlock, hset.imp_right ?_⟩
  rintro ⟨l, hin, rfl, hsince⟩
  exact ⟨_, hin.append hstep, rfl, hsince.mono hnow (Session.Crashed.step rules s step)⟩

theorem failed (h : Backed rules s x steps) : Backed rules s x (steps ++ [.call .fail]) := by
  obtain ⟨t?, lock, hcounts, hlock, hset⟩ := h
  have hconcat := Session.run_concat rules s x steps (.call .fail)
  generalize hy : x.run rules s steps = y at hcounts hlock hset hconcat
  obtain ⟨o, m', t?', lock', hplay, hfailed, hcounts', hlock'⟩ := play_recordFailure (t := y.turn) rules s hcounts hlock
  have hcrashed := Session.Crashed.step (x := y) rules s (.call .fail)
  rw [Session.step_of_play rfl hplay] at hconcat hcrashed
  refine ⟨t?', lock', hconcat ▸ hcounts', hconcat ▸ hlock', ?_⟩
  rw [hconcat]
  cases hfailed with
  | kept =>
    refine hset.imp_right ?_
    rintro ⟨l, hin, rfl, hsince⟩
    exact ⟨_, hin.append (by simp), rfl, hsince.mono (Nat.le_refl _) hcrashed⟩
  | @counted u hraised hfree =>
    refine hset.imp_right ?_
    rintro ⟨l, hin, rfl, hsince⟩
    refine ⟨_, hin.append (by simp), rfl, hsince.raised hin.locks hraised (hfree.imp_right ?_)⟩
    rintro ⟨c, rfl⟩
    exact ⟨_, List.mem_append_right _ List.mem_cons_self, rfl⟩
  | @locked u hraised hruns hlocks =>
    right
    refine ⟨⟨steps, [], u.count, u.deadline⟩, ⟨rfl, by simp, hlocks, ?_⟩, ?_, .same (Int.le_refl _) rfl⟩
    · rw [Locking.moment, hconcat]
      exact (hcounts' _ (Nat.le_refl _)).trans ((u.live_entry y.now).trans (if_pos hruns))
    · rw [Locking.lock, Locking.moment, hconcat]

theorem succeeded (remember : Bool) : Backed rules s x (steps ++ [.call (.succeed remember)]) := by
  have hconcat := Session.run_concat rules s x steps (.call (.succeed remember))
  obtain ⟨o, m', rest, hplay, hcounts, hlock⟩ :=
    play_recordSuccess rules s remember (x.run rules s steps).turn (x.run rules s steps).memory
  rw [Session.step_of_play rfl hplay] at hconcat
  exact ⟨none, none, hconcat ▸ hcounts, hconcat ▸ hlock, .inl rfl⟩

theorem step (h : Backed rules s x steps) {step : Step}
    (haside : ∀ r, step = .aside r → r.leaves s.failuresKey = true ∧ r.leaves s.lockedKey = true) :
    Backed rules s x (steps ++ [step]) := by
  cases step with
  | call op =>
    cases op with
    | fail => exact h.failed
    | succeed remember => exact succeeded remember
    | check =>
      exact h.untouched (by simp) (Nat.le_refl _) fun key c _ hc => Session.shows_step_check rules s hc
  | aside r =>
    obtain ⟨hcounts, hlock⟩ := haside r rfl
    refine h.untouched (by simp) (Nat.le_refl _) ?_
    rintro key c (rfl | rfl) hc
    · exact hc.kept hcounts rfl
    · exact hc.kept hlock rfl
  | advance d => exact h.untouched (by simp) (Nat.le_add_right ..) fun key c _ hc => hc.later (Nat.le_add_right ..)

theorem run (h : Backed rules s x steps) {more : List Step}
    (haside : ∀ r, .aside r ∈ more → r.leaves s.failuresKey = true ∧ r.leaves s.lockedKey = true) :
    Backed rules s x (steps ++ more) := by
  induction more generalizing steps with
  | nil => rwa [List.append_nil]
  | cons step rest ih =>
    rw [List.append_cons]
    refine ih (h.step ?_) fun r hr => haside r (List.mem_cons_of_mem _ hr)
    rintro r rfl
    exact haside r List.mem_cons_self

end Backed

/-- A lock is that of a failure of the run, past the free attempts and with no success since. As long as the streak of that
failure lasts the count is no lower than the one it came to. From the end of the streak on the lock has outlived the
failures: unless a call has crashed, the count is one that does not lock. -/
theorem lock_backed_while_streak_lasts (rules : Rules) (s : Subject) (m : Memory) (start : Instant) (steps : List Step)
    (hfailures : m.visible? start s.failuresKey = none) (hlocked : m.visible? start s.lockedKey = none)
    (haside : ∀ r, .aside r ∈ steps → r.leaves s.failuresKey = true ∧ r.leaves s.lockedKey = true) (e : Entry)
    (hlock : ((Session.opened m start).run rules s steps).memory.visible?
      ((Session.opened m start).run rules s steps).now s.lockedKey = some e) :
    let x := (Session.opened m start).run rules s steps
    ∃ l : Locking, l.In rules s (.opened m start) steps ∧ rules.policy.freeAttempts < l.count ∧
      e = l.lock rules s (.opened m start) ∧ ∃ n, (x.play (failureCount s).run).1 = .ok (.ok n) ∧
        (x.now.nanos < l.deadline.nanos → l.count ≤ n) ∧
        (l.deadline.nanos ≤ x.now.nanos → (∀ a ∈ x.past, a.isDone) → n ≤ rules.policy.freeAttempts) := by
  intro x
  have hopened : Backed rules s (.opened m start) [] :=
    ⟨none, none, Memory.shows_none hfailures, Memory.shows_none hlocked, .inl rfl⟩
  obtain ⟨t?, lock, hcounts, hshows, hset⟩ := hopened.run haside
  have hlive : lock.live x.now = some e := (hshows x.now (Nat.le_refl _)).symm.trans hlock
  obtain ⟨rfl, _⟩ := Cell.live_eq_some hlive
  rcases hset with hnone | ⟨l, hin, he, hsince⟩
  · cases hnone
  · obtain ⟨hlast, hover⟩ := hsince.countAt
    refine ⟨l, hin, Policy.lt_of_lockout_ne_zero hin.locks, Option.some.inj he, _, play_failureCount hcounts, hlast, ?_⟩
    intro hends hdone
    refine hover hends ?_
    rintro ⟨a, ha, hcrash⟩
    rw [hdone a ha] at hcrash
    cases hcrash

/-- One failure, and three more just before the streak that it began ends. -/
def lateFailures : List Step := [.call .fail, .advance (.ofSeconds 86399), .call .fail, .call .fail, .call .fail]

theorem fourth_failure_backs_lock :
    let x := (Session.opened .empty ⟨0⟩).run .standard someone lateFailures
    Memory.empty.visible? ⟨0⟩ someone.failuresKey = none ∧ Memory.empty.visible? ⟨0⟩ someone.lockedKey = none ∧
      (∀ r, .aside r ∈ lateFailures → r.leaves someone.failuresKey = true ∧ r.leaves someone.lockedKey = true) ∧
      x.memory.visible? x.now someone.lockedKey = some (Rules.standard.lockEntry 4 ⟨86399000000000⟩) ∧
      ∃ l : Locking, l.In .standard someone (.opened .empty ⟨0⟩) lateFailures ∧ 3 < l.count ∧
        Rules.standard.lockEntry 4 ⟨86399000000000⟩ = l.lock .standard someone (.opened .empty ⟨0⟩) ∧
        ∃ n, (x.play (failureCount someone).run).1 = .ok (.ok n) ∧ (x.now.nanos < l.deadline.nanos → l.count ≤ n) ∧
          (l.deadline.nanos ≤ x.now.nanos → (∀ a ∈ x.past, a.isDone) → n ≤ 3) := by
  intro x
  have haside : ∀ r, .aside r ∈ lateFailures → r.leaves someone.failuresKey = true ∧ r.leaves someone.lockedKey = true := by
    simp [lateFailures]
  have hlock : x.memory.visible? x.now someone.lockedKey = some (Rules.standard.lockEntry 4 ⟨86399000000000⟩) := by
    decide +kernel
  exact ⟨rfl, rfl, haside, hlock,
    lock_backed_while_streak_lasts .standard someone .empty ⟨0⟩ lateFailures rfl rfl haside _ hlock⟩

/-- A second later the streak is over, and the lock has four more seconds to go. -/
theorem lock_outlives_streak : ¬ ∀ steps : List Step,
    let x := (Session.opened .empty ⟨0⟩).run .standard someone steps
    (x.memory.visible? x.now someone.lockedKey).isSome →
      ∃ n, (x.play (failureCount someone).run).1 = .ok (.ok n) ∧ Rules.standard.policy.freeAttempts < n := by
  intro h
  let x := (Session.opened .empty ⟨0⟩).run .standard someone (lateFailures ++ [.advance (.ofSeconds 1)])
  have hlocked : (x.memory.visible? x.now someone.lockedKey).isSome := by decide +kernel
  have hgone : x.memory.visible? x.now someone.failuresKey = none := by decide +kernel
  obtain ⟨n, hcount, hpast⟩ := h _ hlocked
  have hcounts : x.memory.Shows x.now someone.failuresKey (Tally.cell none) := Memory.shows_none hgone
  have hzero : (x.play (failureCount someone).run).1 = .ok (.ok 0) := play_failureCount hcounts
  obtain rfl : (0 : Int) = n := Except.ok.inj (Except.ok.inj (hzero.symm.trans hcount))
  exact absurd hpast (by decide)

end Coordination.SignIn
