import Coordination.Proofs.SignIn.Course

/-! # Streaks

Attempts of one subject come one after the other, at any times and next to whatever else goes on in the store. The past alone
says what the next failure comes to: nothing is counted while a success is remembered, and else the count goes on
from the failures of the streak that still runs. A streak runs from its first failure on for as long as a streak lives,
however many failures follow, and ends with a success.
-/
namespace Coordination.SignIn
open Store (Cell Crash Memory countRequest)

inductive Operation where
  | fail
  | check
  | succeed (remember : Bool)
deriving DecidableEq

inductive Answer where
  | failed (outcome : Except Failure FailureOutcome)
  | checked (standing : Except Failure Standing)
  | succeeded (done : Except Failure Unit)

def Operation.program (rules : Rules) (s : Subject) : Operation → Program Unit Answer
  | .fail => Answer.failed <$> (rules.recordFailure s).run
  | .check => Answer.checked <$> (SignIn.check s).run
  | .succeed remember => Answer.succeeded <$> (rules.recordSuccess s remember).run

structure Attempt where
  time : Instant
  op : Operation
  outcome : Except Crash Answer

def Attempt.isDone (a : Attempt) : Bool := a.outcome.isOk

theorem isOk_map {α β : Type} (f : α → β) (o : Except Crash α) : (o.map f).isOk = o.isOk := by
  cases o <;> rfl

def Attempt.isRecorded (a : Attempt) : Bool :=
  match a.outcome with
  | .ok (.failed (.ok (.recorded ..))) => true
  | _ => false

namespace Rules

/-- A success that still counts as known good. -/
def Remembers (rules : Rules) (past : List Attempt) (now : Instant) : Prop :=
  ∃ a ∈ past, a.op = .succeed true ∧ now.nanos < a.time.nanos + rules.knownGoodTtl.nanos

instance (rules : Rules) (past : List Attempt) (now : Instant) : Decidable (rules.Remembers past now) :=
  inferInstanceAs (Decidable (∃ a ∈ past, a.op = .succeed true ∧ now.nanos < a.time.nanos + rules.knownGoodTtl.nanos))

/-- The streak as it is at an instant, if it still runs. -/
def current (rules : Rules) (now : Instant) : List Instant → List Instant
  | [] => []
  | first :: more => if now.nanos < first.nanos + rules.failureTtl.nanos then first :: more else []

def extend (rules : Rules) (streak : List Instant) (a : Attempt) : List Instant :=
  match a.op with
  | .succeed _ => []
  | .check => streak
  | .fail => if a.isRecorded then rules.current a.time streak ++ [a.time] else streak

/-- The times of the failures of the last streak, oldest first; it need not run any more. -/
def lastStreak (rules : Rules) (past : List Attempt) : List Instant := past.foldl rules.extend []

def streak (rules : Rules) (past : List Attempt) (now : Instant) : List Instant :=
  rules.current now (rules.lastStreak past)

def next (streak : List Instant) : Int := ((streak.length + 1 : Nat) : Int)

/-- The clock can hold the deadlines that the next failure of a streak sets. -/
structure Holds (rules : Rules) (now : Instant) (streak : List Instant) : Prop where
  streakEnds : streak = [] → (now.add? rules.failureTtl).isSome
  lockEnds : rules.policy.lockout (next streak) ≠ 0 →
    (now.add? (.ofSeconds (rules.policy.lockout (next streak)))).isSome

structure Last (rules : Rules) : Prop where
  failures : rules.failureTtl.millis ≠ 0
  knownGood : rules.knownGoodTtl.millis ≠ 0

end Rules

inductive Step where
  | call (op : Operation)
  | aside (r : Store.Request)
  | advance (d : Duration)

structure Session where
  memory : Memory
  now : Instant
  past : List Attempt

namespace Session

def opened (m : Memory) (now : Instant) : Session := ⟨m, now, []⟩

abbrev turn (x : Session) : Turn := ⟨x.now, "", 0⟩

def play {α : Type} (x : Session) (p : Program Unit α) : Except Crash α × Memory × Faults := x.turn.play p x.memory []

def step (rules : Rules) (s : Subject) (x : Session) : Step → Session
  | .call op =>
    let (outcome, m, _) := x.play (op.program rules s)
    ⟨m, x.now, x.past ++ [⟨x.now, op, outcome⟩]⟩
  | .aside r => { x with memory := (x.memory.serve x.now r).2 }
  | .advance d => { x with now := x.now.advance d }

def run (rules : Rules) (s : Subject) (x : Session) (steps : List Step) : Session := steps.foldl (step rules s) x

end Session

namespace Rules
variable {rules : Rules} {s : Subject} {streak : List Instant} {m : Memory} {t : Turn} {now : Instant}

def record (rules : Rules) : List Instant → Cell
  | [] => none
  | first :: more => some ⟨toString (next more), some (first.advance rules.failureTtl)⟩

theorem live_record (rules : Rules) (streak : List Instant) (now : Instant) :
    (rules.record streak).live now = rules.record (rules.current now streak) := by
  cases streak with
  | nil => rfl
  | cons first more =>
    rw [record, Cell.live_until, current]
    show (if now.nanos < first.nanos + rules.failureTtl.nanos then _ else _) = _
    split <;> rfl

theorem length_current_le (rules : Rules) (now : Instant) (streak : List Instant) :
    (rules.current now streak).length ≤ streak.length := by
  unfold current
  split
  · exact Nat.le_refl _
  · split
    · exact Nat.le_refl _
    · exact Nat.zero_le _

/-- What becomes of a failure that is counted, and the streak after it. -/
inductive Counted (rules : Rules) (s : Subject) (now : Instant) (streak : List Instant) :
    Except Crash (Except Failure FailureOutcome) → List Instant → Prop
  | crashed {after : List Instant} (c : Crash) (h : ¬ rules.Holds now (rules.current now streak)) :
    Counted rules s now streak (.error c) after
  | full (h : Memory.counterBounds.contains (next (rules.current now streak)) = false) :
    Counted rules s now streak (.ok (.error (.internal (.overflow s.failuresKey)))) streak
  | recorded (h : Memory.counterBounds.contains (next (rules.current now streak)) = true) :
    Counted rules s now streak (.ok (.ok (SignIn.recorded rules (next (rules.current now streak)))))
      (rules.current now streak ++ [now])

theorem next_cons (first : Instant) (more : List Instant) : next (first :: more) = next more + 1 := rfl

theorem next_concat (streak : List Instant) (t : Instant) : next (streak ++ [t]) = next streak + 1 := by
  simp [next]

theorem serve_count (hlast : rules.Last) (hbounds : Memory.counterBounds.contains streak.length = true) :
    (∃ c, (rules.record streak).serve now (countRequest s.failuresKey rules.failureTtl) = (.error c, rules.record streak) ∧
      ¬ rules.Holds now (rules.current now streak)) ∨
    (rules.record streak).serve now (countRequest s.failuresKey rules.failureTtl) =
      if Memory.counterBounds.contains (next (rules.current now streak)) then
        (.ok (.ok (next (rules.current now streak))), rules.record (rules.current now streak ++ [now]))
      else (.ok (.error (.internal (.overflow s.failuresKey))), rules.record streak) := by
  have hlive := rules.live_record streak now
  have hlength := rules.length_current_le now streak
  cases hcurrent : rules.current now streak with
  | nil =>
    rw [hcurrent] at hlive
    rw [Cell.serve_count_of_free hlast.failures s.failuresKey hlive]
    cases hends : now.add? rules.failureTtl with
    | none =>
      refine .inl ⟨_, rfl, fun hholds => ?_⟩
      have := hholds.streakEnds rfl
      rw [hends] at this
      cases this
    | some t =>
      have hadvance := Instant.add?_eq_advance (hends ▸ rfl : (now.add? rules.failureTtl).isSome)
      rw [hends] at hadvance
      cases hadvance
      exact .inr rfl
  | cons first more =>
    rw [hcurrent] at hlive hlength
    have hcount : Memory.counterBounds.contains (next more) = true :=
      Store.counterBounds_of_le (Int.natCast_nonneg _) (Int.ofNat_le.2 hlength) hbounds
    rw [Cell.serve_count_of_live hlast.failures s.failuresKey hlive hcount, List.cons_append, record, next_concat, next_cons]
    exact .inr rfl

theorem play_afterCount (rules : Rules) (s : Subject) (t : Turn) (m : Memory) (n : Int) :
    ∃ o m', t.play (afterCount rules s (.ok n)) m [] = (o, m', []) ∧
      (∀ key c, key ≠ s.lockedKey → m.Shows t.now key c → m'.Shows t.now key c) ∧
      (o = .ok (.ok (SignIn.recorded rules n)) ∨ (∃ c, o = .error c) ∧ rules.policy.lockout n ≠ 0 ∧
        t.now.add? (.ofSeconds (rules.policy.lockout n)) = none) := by
  rw [afterCount]
  by_cases hzero : rules.policy.lockout n = 0
  · rw [if_pos hzero]
    exact ⟨_, m, rfl, fun _ _ _ h => h, .inl rfl⟩
  · have hlong := millis_ofSeconds_ne hzero
    rw [if_neg hzero]
    obtain ⟨m', hframe, ⟨hm, hends, _⟩ | ⟨hm, _⟩⟩ := m.set_cases t.now s.lockedKey (toString (rules.policy.lockout n)) hlong
    · exact ⟨_, m', Turn.play_crashed hm, fun _ _ hne h => hframe.shows hne h, .inr ⟨⟨_, rfl⟩, hzero, hends⟩⟩
    · exact ⟨_, m', Turn.play_served hm, fun _ _ hne h => hframe.shows hne h, .inl rfl⟩

/-- A failure with no success to remember is counted, unless that crashes or the count is full. -/
theorem play_fail (hlast : rules.Last) (hknown : m.visible? t.now s.knownGoodKey = none)
    (hrecord : m.Shows t.now s.failuresKey (rules.record streak))
    (hbounds : Memory.counterBounds.contains streak.length = true) :
    ∃ o m' after, t.play (rules.recordFailure s).run m [] = (o, m', []) ∧ rules.Counted s t.now streak o after ∧
      m'.Shows t.now s.failuresKey (rules.record after) ∧
      ∀ c, m.Shows t.now s.knownGoodKey c → m'.Shows t.now s.knownGoodKey c := by
  have hread : ∀ key, (Store.Request.get s.knownGoodKey).leaves key = true := fun _ => Store.Request.leaves_of_reads rfl
  have hsame : ∀ {key c}, m.Shows t.now key c → (m.serve t.now (.get s.knownGoodKey)).2.Shows t.now key c :=
    fun h => h.kept (hread _) rfl
  rw [run_recordFailure, Turn.play_get, hknown, Option.map_none]
  generalize (m.serve t.now (.get s.knownGoodKey)).2 = m₁ at hsame ⊢
  have hleaves : (countRequest s.failuresKey rules.failureTtl).leaves s.knownGoodKey = true :=
    Store.Request.leaves_of_ne fun h => failuresKey_ne_knownGoodKey s s (Option.some.inj h)
  rcases serve_count (s := s) hlast hbounds with ⟨c, hserve, hholds⟩ | hserve
  · obtain ⟨m₂, hm₂, hshows, _⟩ := (hsame hrecord).serve (Store.countRequest_key ..) hserve
    exact ⟨_, m₂, streak, Turn.play_crashed hm₂, .crashed c hholds, hshows, fun _ h => (hsame h).kept hleaves hm₂⟩
  · cases hnext : Memory.counterBounds.contains (next (rules.current t.now streak)) with
    | false =>
      rw [hnext, if_neg Bool.false_ne_true] at hserve
      obtain ⟨m₂, hm₂, hshows, _⟩ := (hsame hrecord).serve (Store.countRequest_key ..) hserve
      exact ⟨_, m₂, streak, Turn.play_served hm₂, .full hnext, hshows, fun _ h => (hsame h).kept hleaves hm₂⟩
    | true =>
      rw [hnext, if_pos rfl] at hserve
      obtain ⟨m₂, hm₂, hshows, _⟩ := (hsame hrecord).serve (Store.countRequest_key ..) hserve
      obtain ⟨o, m₃, hplay, hkept, hends⟩ := play_afterCount rules s t m₂ (next (rules.current t.now streak))
      refine ⟨o, m₃, rules.current t.now streak ++ [t.now], (Turn.play_served hm₂).trans hplay, ?_,
        hkept _ _ (lockedKey_ne_failuresKey s s).symm hshows,
        fun _ h => hkept _ _ (lockedKey_ne_knownGoodKey s s).symm ((hsame h).kept hleaves hm₂)⟩
      rcases hends with rfl | ⟨⟨c, rfl⟩, hlock, hclock⟩
      · exact .recorded hnext
      · refine .crashed c fun hholds => ?_
        have := hholds.lockEnds hlock
        rw [hclock] at this
        cases this

theorem play_bypassed (rules : Rules) (h : (m.visible? t.now s.knownGoodKey).isSome) :
    t.play (rules.recordFailure s).run m [] = (.ok (.ok .bypassed), (m.serve t.now (.get s.knownGoodKey)).2, []) := by
  obtain ⟨e, he⟩ := Option.isSome_iff_exists.1 h
  rw [run_recordFailure, Turn.play_get, he]
  rfl

theorem play_succeed (hlast : rules.Last) (remember : Bool) (t : Turn) (m : Memory) :
    ∃ o m', t.play (rules.recordSuccess s remember).run m [] = (o, m', []) ∧ m'.Shows t.now s.failuresKey none ∧
      if remember then (∃ c, o = .error c) ∨ m'.Shows t.now s.knownGoodKey (some ⟨"1", some (t.now.advance rules.knownGoodTtl)⟩)
      else ∀ c, m.Shows t.now s.knownGoodKey c → m'.Shows t.now s.knownGoodKey c := by
  have hdelete : ∀ (c : Cell) (key : String), c.serve t.now (.delete key) = (.ok (.ok (c.live t.now).isSome), none) :=
    fun _ _ => rfl
  obtain ⟨m₁, hm₁, hgone, hsame₁⟩ := (m.shows_find? t.now s.failuresKey).serve rfl (hdelete _ _)
  obtain ⟨m₂, hm₂, _, hsame₂⟩ := (m₁.shows_find? t.now s.lockedKey).serve rfl (hdelete _ _)
  have hgone₂ := hsame₂.shows (lockedKey_ne_failuresKey s s).symm hgone
  rw [run_recordSuccess, Turn.play_served hm₁]
  dsimp only
  rw [Turn.play_served hm₂]
  cases remember with
  | false =>
    refine ⟨_, m₂, rfl, hgone₂, ?_⟩
    rw [if_neg Bool.false_ne_true]
    intro c hc
    exact hsame₂.shows (lockedKey_ne_knownGoodKey s s).symm (hsame₁.shows (failuresKey_ne_knownGoodKey s s).symm hc)
  | true =>
    simp only [if_true]
    obtain ⟨m₃, hframe, ⟨hm₃, _⟩ | ⟨hm₃, _, hmarked⟩⟩ := m₂.set_cases t.now s.knownGoodKey "1" hlast.knownGood
    · exact ⟨_, m₃, Turn.play_crashed hm₃, hframe.shows (failuresKey_ne_knownGoodKey s s) hgone₂, .inl ⟨_, rfl⟩⟩
    · exact ⟨_, m₃, Turn.play_served hm₃, hframe.shows (failuresKey_ne_knownGoodKey s s) hgone₂, .inr hmarked⟩

end Rules

namespace Session
variable {rules : Rules} {s : Subject} {x : Session}

theorem step_of_play {α : Type} {op : Operation} {p : Program Unit α} {f : α → Answer} (hop : op.program rules s = f <$> p)
    {o : Except Crash α} {m' : Memory} {rest : Faults} (hplay : x.play p = (o, m', rest)) :
    x.step rules s (.call op) = ⟨m', x.now, x.past ++ [⟨x.now, op, o.map f⟩]⟩ := by
  unfold Session.play at hplay
  simp only [step, Session.play, hop, Turn.play_map, hplay]

theorem shows_step_check (rules : Rules) (s : Subject) {key : String} {c : Cell} (h : x.memory.Shows x.now key c) :
    (x.step rules s (.call .check)).memory.Shows x.now key c := by
  obtain ⟨o, m', rest, hplay⟩ : ∃ o m' rest, x.play (check s).run = (o, m', rest) := ⟨_, _, _, rfl⟩
  have hkept := Turn.ensures_shows (t := x.turn) (check_avoids s key) h []
  rw [show x.turn.play (check s).run x.memory [] = _ from hplay] at hkept
  rwa [step_of_play rfl hplay]

end Session

/-- The memory shows of a subject what the past says. -/
structure Session.Tracks (rules : Rules) (s : Subject) (x : Session) : Prop where
  past : ∀ a ∈ x.past, a.time.nanos ≤ x.now.nanos
  known : ∀ later : Instant, x.now.nanos ≤ later.nanos →
    ((x.memory.visible? later s.knownGoodKey).isSome ↔ rules.Remembers x.past later)
  counts : x.memory.Shows x.now s.failuresKey (rules.record (rules.lastStreak x.past))
  bounded : Memory.counterBounds.contains (rules.lastStreak x.past).length = true

theorem Rules.lastStreak_concat (rules : Rules) (past : List Attempt) (a : Attempt) :
    rules.lastStreak (past ++ [a]) = rules.extend (rules.lastStreak past) a := by
  rw [lastStreak, List.foldl_append]
  rfl

theorem Rules.remembers_concat {rules : Rules} {past : List Attempt} {a : Attempt} {now : Instant} :
    rules.Remembers (past ++ [a]) now ↔ rules.Remembers past now ∨
      a.op = .succeed true ∧ now.nanos < a.time.nanos + rules.knownGoodTtl.nanos := by
  simp only [Remembers, List.mem_append, List.mem_singleton, or_and_right, exists_or, exists_eq_left]

namespace Session.Tracks
variable {rules : Rules} {s : Subject} {x : Session} {m' : Memory}

theorem opened {m : Memory} {now : Instant} (hknown : m.visible? now s.knownGoodKey = none)
    (hfailures : m.visible? now s.failuresKey = none) : (Session.opened m now).Tracks rules s where
  past := by simp [Session.opened]
  known := by
    intro later hl
    rw [Session.opened, Memory.shows_none hknown later hl]
    simp [Rules.Remembers]
  counts := Memory.shows_none hfailures
  bounded := Store.counterBounds_zero

theorem visible_iff (h : x.Tracks rules s) (hkept : ∀ c, x.memory.Shows x.now s.knownGoodKey c → m'.Shows x.now s.knownGoodKey c)
    {later : Instant} (hl : x.now.nanos ≤ later.nanos) :
    (m'.visible? later s.knownGoodKey).isSome ↔ rules.Remembers x.past later := by
  rw [hkept _ (x.memory.shows_find? x.now s.knownGoodKey) later hl]
  exact h.known later hl

theorem note (h : x.Tracks rules s) {op : Operation} {outcome : Except Crash Answer}
    (hknown : ∀ later : Instant, x.now.nanos ≤ later.nanos → ((m'.visible? later s.knownGoodKey).isSome ↔
      rules.Remembers x.past later ∨ op = .succeed true ∧ later.nanos < x.now.nanos + rules.knownGoodTtl.nanos))
    {after : List Instant} (hafter : rules.extend (rules.lastStreak x.past) ⟨x.now, op, outcome⟩ = after)
    (hcounts : m'.Shows x.now s.failuresKey (rules.record after))
    (hbounded : Memory.counterBounds.contains after.length = true) :
    (⟨m', x.now, x.past ++ [⟨x.now, op, outcome⟩]⟩ : Session).Tracks rules s where
  past := by
    intro a ha
    rcases List.mem_append.1 ha with ha | ha
    · exact h.past a ha
    · obtain rfl := List.mem_singleton.1 ha
      exact Nat.le_refl _
  known := by
    intro later hl
    rw [Rules.remembers_concat]
    exact hknown later hl
  counts := by rwa [Rules.lastStreak_concat, hafter]
  bounded := by rwa [Rules.lastStreak_concat, hafter]

theorem failed (h : x.Tracks rules s) (hlast : rules.Last)
    (hdone : (x.play (rules.recordFailure s).run).1.isOk) : (x.step rules s (.call .fail)).Tracks rules s := by
  cases hseen : x.memory.visible? x.now s.knownGoodKey with
  | some e =>
    have hplay := rules.play_bypassed (t := x.turn) (Option.isSome_of_eq_some hseen)
    have hget : (Store.Request.get s.knownGoodKey).leaves s.failuresKey = true := Store.Request.leaves_of_reads rfl
    rw [step_of_play rfl hplay]
    refine h.note ?_ rfl (h.counts.kept hget rfl) h.bounded
    intro later hl
    rw [Memory.visible?_serve x.memory hl rfl, h.known later hl]
    simp
  | none =>
    obtain ⟨o, m', after, hplay, hcounted, hcounts, hkept⟩ :=
      Rules.play_fail (t := x.turn) hlast hseen h.counts h.bounded
    have hknown : ∀ later : Instant, x.now.nanos ≤ later.nanos → ((m'.visible? later s.knownGoodKey).isSome ↔
        rules.Remembers x.past later ∨
          Operation.fail = .succeed true ∧ later.nanos < x.now.nanos + rules.knownGoodTtl.nanos) := by
      intro later hl
      rw [h.visible_iff hkept hl]
      simp
    unfold Session.play at hdone
    rw [hplay] at hdone
    rw [step_of_play rfl hplay]
    cases hcounted with
    | crashed c hholds => cases hdone
    | full hfull => exact h.note hknown rfl hcounts h.bounded
    | recorded hnext =>
      have hafter : (rules.current x.now (rules.lastStreak x.past) ++ [x.now]).length =
          (rules.current x.now (rules.lastStreak x.past)).length + 1 := List.length_append
      exact h.note hknown (rfl : _ = rules.current x.now (rules.lastStreak x.past) ++ [x.now]) hcounts (hafter ▸ hnext)

theorem checked (h : x.Tracks rules s) : (x.step rules s (.call .check)).Tracks rules s := by
  obtain ⟨o, m', rest, hplay⟩ : ∃ o m' rest, x.play (check s).run = (o, m', rest) := ⟨_, _, _, rfl⟩
  have hstep : x.step rules s (.call .check) = _ := step_of_play rfl hplay
  have hshows : ∀ {key c}, x.memory.Shows x.now key c → m'.Shows x.now key c := by
    intro key c hc
    have hkept := x.shows_step_check rules s hc
    rwa [hstep] at hkept
  rw [hstep]
  refine h.note ?_ rfl (hshows h.counts) h.bounded
  intro later hl
  rw [h.visible_iff (fun _ hc => hshows hc) hl]
  simp

theorem succeeded (h : x.Tracks rules s) (hlast : rules.Last) {remember : Bool}
    (hdone : (x.play (rules.recordSuccess s remember).run).1.isOk) :
    (x.step rules s (.call (.succeed remember))).Tracks rules s := by
  obtain ⟨o, m', hplay, hgone, hmarked⟩ := Rules.play_succeed (s := s) hlast remember x.turn x.memory
  unfold Session.play at hdone
  rw [hplay] at hdone
  rw [step_of_play rfl hplay]
  refine h.note ?_ rfl hgone Store.counterBounds_zero
  intro later hl
  cases remember with
  | false =>
    rw [h.visible_iff hmarked hl]
    simp
  | true =>
    rcases hmarked with ⟨c, rfl⟩ | hshows
    · cases hdone
    · have hearlier : rules.Remembers x.past later → later.nanos < x.now.nanos + rules.knownGoodTtl.nanos := by
        rintro ⟨a, ha, _, hlt⟩
        have := h.past a ha
        omega
      have hmark : (Cell.live (some ⟨"1", some (x.now.advance rules.knownGoodTtl)⟩) later).isSome ↔
          later.nanos < x.now.nanos + rules.knownGoodTtl.nanos := by
        rw [Cell.live_until, Instant.advance]
        split <;> simp [*]
      rw [hshows later hl, hmark]
      exact ⟨fun hlt => .inr ⟨rfl, hlt⟩, fun hor => hor.elim hearlier And.right⟩

theorem step (h : x.Tracks rules s) (hlast : rules.Last) {step : Step}
    (haside : ∀ r, step = .aside r → r.leaves s.knownGoodKey = true ∧ r.leaves s.failuresKey = true)
    (hdone : ∀ a ∈ (x.step rules s step).past, a.isDone) : (x.step rules s step).Tracks rules s := by
  cases step with
  | call op =>
    have hop : (x.play (op.program rules s)).1.isOk := hdone _ (List.mem_append_right _ List.mem_cons_self)
    cases op with
    | fail =>
      refine h.failed hlast ?_
      rwa [Operation.program, Session.play, Turn.play_map, isOk_map] at hop
    | check => exact h.checked
    | succeed remember =>
      refine h.succeeded hlast ?_
      rwa [Operation.program, Session.play, Turn.play_map, isOk_map] at hop
  | aside r =>
    obtain ⟨hknown, hcounts⟩ := haside r rfl
    refine { h with counts := h.counts.kept hcounts rfl, known := fun later hl => ?_ }
    exact h.visible_iff (fun _ hc => hc.kept hknown rfl) hl
  | advance d =>
    have hle : x.now.nanos ≤ (x.now.advance d).nanos := Nat.le_add_right ..
    exact { h with
      past := fun a ha => Nat.le_trans (h.past a ha) hle
      known := fun later hl => h.known later (Nat.le_trans hle hl)
      counts := h.counts.later hle }

end Session.Tracks

theorem Session.past_subset_step (rules : Rules) (s : Subject) (x : Session) (step : Step) :
    x.past ⊆ (x.step rules s step).past := by
  cases step with
  | call op => exact List.subset_append_left ..
  | aside r => exact List.Subset.refl _
  | advance d => exact List.Subset.refl _

theorem Session.past_subset_run (rules : Rules) (s : Subject) (x : Session) (steps : List Step) :
    x.past ⊆ (x.run rules s steps).past := by
  induction steps generalizing x with
  | nil => exact List.Subset.refl _
  | cons step rest ih => exact List.Subset.trans (x.past_subset_step rules s step) (ih _)

theorem Session.Tracks.run {rules : Rules} {s : Subject} {x : Session} (h : x.Tracks rules s) (hlast : rules.Last)
    {steps : List Step}
    (haside : ∀ r, .aside r ∈ steps → r.leaves s.knownGoodKey = true ∧ r.leaves s.failuresKey = true)
    (hdone : ∀ a ∈ (x.run rules s steps).past, a.isDone) : (x.run rules s steps).Tracks rules s := by
  induction steps generalizing x with
  | nil => exact h
  | cons step rest ih =>
    have hstep : (x.step rules s step).Tracks rules s := by
      apply h.step hlast
      · rintro r rfl
        exact haside r List.mem_cons_self
      · exact fun a ha => hdone a (Session.past_subset_run rules s _ rest ha)
    exact ih hstep (fun r hr => haside r (List.mem_cons_of_mem _ hr)) hdone

/-- After any run in which no call crashed, a failure passes by the store without a trace exactly if a success is
remembered. Otherwise it is recorded as the next one of the streak, unless the clock cannot hold its deadlines or the count
is full. -/
theorem failure_continues_streak (rules : Rules) (s : Subject) (m : Memory) (start : Instant) (steps : List Step)
    (hlast : rules.Last) (hknown : m.visible? start s.knownGoodKey = none)
    (hfailures : m.visible? start s.failuresKey = none)
    (haside : ∀ r, .aside r ∈ steps → r.leaves s.knownGoodKey = true ∧ r.leaves s.failuresKey = true)
    (hdone : ∀ a ∈ ((Session.opened m start).run rules s steps).past, a.isDone) :
    let x := (Session.opened m start).run rules s steps
    let after := x.play (rules.recordFailure s).run
    let n := Rules.next (rules.streak x.past x.now)
    (after.1 = .ok (.ok .bypassed) ∧ (∀ key (later : Instant), x.now.nanos ≤ later.nanos →
        after.2.1.visible? later key = x.memory.visible? later key) ↔ rules.Remembers x.past x.now) ∧
      (¬ rules.Remembers x.past x.now → rules.Holds x.now (rules.streak x.past x.now) →
        after.1 = .ok (if Memory.counterBounds.contains n then .ok (.recorded n (rules.policy.delayFor n))
          else .error (.internal (.overflow s.failuresKey)))) := by
  intro x after n
  have htracks : x.Tracks rules s := (Session.Tracks.opened hknown hfailures).run hlast haside hdone
  have hseen := htracks.known x.now (Nat.le_refl _)
  -- Unless a success is remembered, what the recording comes to is read off the streak of the past alone.
  have hcounted : ¬ rules.Remembers x.past x.now →
      ∃ streak', rules.Counted s x.now (rules.lastStreak x.past) after.1 streak' := by
    intro hforgotten
    have hnone : x.memory.visible? x.now s.knownGoodKey = none :=
      Option.not_isSome_iff_eq_none.1 fun hsome => hforgotten (hseen.1 hsome)
    obtain ⟨o, m', streak', hplay, hcounted, _⟩ :=
      Rules.play_fail (t := x.turn) hlast hnone htracks.counts htracks.bounded
    refine ⟨streak', ?_⟩
    rwa [show after.1 = o from congrArg Prod.fst hplay]
  refine ⟨⟨?_, ?_⟩, ?_⟩
  · rintro ⟨hbypassed, _⟩
    apply Decidable.byContradiction
    intro hforgotten
    obtain ⟨streak', hcounted⟩ := hcounted hforgotten
    rw [hbypassed] at hcounted
    cases hcounted
  · intro hremembers
    have hplay : after = _ := rules.play_bypassed (t := x.turn) (hseen.2 hremembers)
    rw [hplay]
    exact ⟨rfl, fun key later hl => x.memory.visible?_serve hl rfl key⟩
  · intro hforgotten hholds
    obtain ⟨streak', hcounted⟩ := hcounted hforgotten
    generalize hout : after.1 = outcome at hcounted
    cases hcounted with
    | crashed c hnot => exact absurd hholds hnot
    | full hfull => exact congrArg Except.ok (if_neg (Bool.eq_false_iff.1 hfull)).symm
    | recorded hnext => exact congrArg Except.ok (if_pos hnext).symm

def briefRules : Rules := ⟨⟨1, .ofSeconds 900⟩, .ofMillis 10, .ofMillis 5⟩

def someone : Subject := ⟨"a", "b"⟩

/-- A streak runs out, a success is remembered for a while, and then a new streak begins. -/
def ups : List Step := [
  .call .fail, .advance (.ofMillis 9), .call .fail, .call .check, .advance (.ofMillis 1), .call .fail,
  .call (.succeed true), .aside (.delete "k"), .advance (.ofMillis 4), .call .fail, .advance (.ofMillis 1), .call .fail]

theorem second_failure_locks :
    let x := (Session.opened .empty ⟨0⟩).run briefRules someone ups
    briefRules.Last ∧ Memory.empty.visible? ⟨0⟩ someone.knownGoodKey = none ∧
      Memory.empty.visible? ⟨0⟩ someone.failuresKey = none ∧
      (∀ r, .aside r ∈ ups → r.leaves someone.knownGoodKey = true ∧ r.leaves someone.failuresKey = true) ∧
      (∀ a ∈ x.past, a.isDone) ∧ ¬ briefRules.Remembers x.past x.now ∧
      briefRules.Holds x.now (briefRules.streak x.past x.now) ∧
      (x.play (briefRules.recordFailure someone).run).1 = .ok (.ok (.recorded 2 (.ofSeconds 5))) := by
  intro x
  have hlast : briefRules.Last := ⟨by decide, by decide⟩
  have haside : ∀ r, .aside r ∈ ups → r.leaves someone.knownGoodKey = true ∧ r.leaves someone.failuresKey = true := by
    intro r hr
    simp only [ups, List.mem_cons, List.not_mem_nil, reduceCtorEq, Step.aside.injEq, false_or, or_false] at hr
    subst hr
    decide
  have hdone : ∀ a ∈ x.past, a.isDone := by decide +kernel
  have hforgotten : ¬ briefRules.Remembers x.past x.now := by decide +kernel
  have hholds : briefRules.Holds x.now (briefRules.streak x.past x.now) := ⟨by decide +kernel, by decide +kernel⟩
  exact ⟨hlast, rfl, rfl, haside, hdone, hforgotten, hholds,
    (failure_continues_streak briefRules someone .empty ⟨0⟩ ups hlast rfl rfl haside hdone).2 hforgotten hholds⟩

end Coordination.SignIn
