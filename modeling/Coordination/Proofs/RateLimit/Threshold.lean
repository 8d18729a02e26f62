import Coordination.Proofs.Pool.Run
import Coordination.Proofs.RateLimit.Course

/-! # Requests side by side

Requests with one value in one dimension and window are checked within the lifetime of their counter, their single calls
to the store in any order. Each is counted at most once, and those that have found a count within the threshold are the ones
that are allowed. As long as the count is within the threshold nobody writes a marker, so no request is refused before
the threshold is used up.
-/
namespace Coordination.RateLimit
open Store (Memory countRequest)

/-- One value in one dimension and window, and how many requests may carry it there. -/
structure Meter where
  dimension : Dimension
  value : String
  window : Int
  threshold : Nat

structure Call where
  context : Context
  nowMs : Int

namespace Meter

def counter (x : Meter) : String := counterKey x.dimension x.value x.window

def marker (x : Meter) : String := blockKey x.dimension x.value

/-- Whether a call counts here and nowhere else. -/
def isOnly (x : Meter) (rules : Rules) (op : Call) : Bool :=
  rules.windowAt op.nowMs = x.window && Dimension.all.all fun d =>
    rules.eligible? op.context d = if d = x.dimension then some (x.value, x.threshold) else none

/-- Any calls that count here only, next to requests that leave the counter and the marker alone. -/
def traffic (x : Meter) (rules : Rules) : Traffic Call Unit (Except Failure Decision) where
  program op := (rules.checkAt op.context op.nowMs).run
  admits _ op := x.isOnly rules op
  works _ := true
  aside r := r.leaves x.counter && r.leaves x.marker

end Meter

abbrev Event := Coordination.Event Call Unit (Except Failure Decision)

def isServed (e : Event) : Bool :=
  match e.what with
  | .answered (.store _) (.ok _) => true
  | _ => false

theorem isServed_iff {e : Event} : isServed e = true ↔ ∃ r a, e.what = .answered (.store r) (.ok a) := by
  obtain ⟨task, op, time, what, result⟩ := e
  constructor
  · intro h
    unfold isServed at h
    split at h
    · next hwhat => exact ⟨_, _, hwhat⟩
    · cases h
  · rintro ⟨r, a, rfl⟩
    rfl

/-- The course of a check that has no other dimension to count in. -/
def decided (check : Program Unit (Except Failure (Option Decision))) : Program Unit (Except Failure Decision) :=
  check.bind (afterDimension (.done (.ok .allowed)))

section Answers
variable (rules : Rules) (x : Meter) (op : Call)

def onMarker (reply : Except Failure (Option String)) : Program Unit (Except Failure Decision) :=
  decided (afterMarker rules x.dimension x.value x.threshold op.nowMs reply)

def onWait (reply : Except Failure (Option Duration)) : Program Unit (Except Failure Decision) :=
  decided (afterWait rules x.dimension reply)

def onCount (reply : Except Failure Int) : Program Unit (Except Failure Decision) :=
  decided (afterCount rules x.dimension x.value x.threshold op.nowMs reply)

def onMark (reply : Except Failure Unit) : Program Unit (Except Failure Decision) :=
  decided (afterMark rules x.dimension reply)

end Answers

variable {rules : Rules} {x : Meter} {op : Call}

theorem run_checkDimensions_only (h : ∀ d ∈ Dimension.all, rules.eligible? op.context d =
    if d = x.dimension then some (x.value, x.threshold) else none) {ds : List Dimension} (hsub : ds ⊆ Dimension.all)
    (hnodup : ds.Nodup) :
    (rules.checkDimensions op.context op.nowMs ds : Action Unit Decision).run =
      if x.dimension ∈ ds then decided (rules.checkDimension x.dimension x.value x.threshold op.nowMs).run
      else .done (.ok .allowed) := by
  induction ds with
  | nil => rfl
  | cons d rest ih =>
    obtain ⟨hd, hrest⟩ := List.nodup_cons.1 hnodup
    have hih := ih (fun _ hmem => hsub (List.mem_cons_of_mem d hmem)) hrest
    rw [run_checkDimensions_cons, h d (hsub List.mem_cons_self), hih]
    by_cases heq : d = x.dimension
    · subst heq
      simp only [if_true, if_neg hd, List.mem_cons_self]
      rfl
    · have hne : ¬ x.dimension = d := fun he => heq he.symm
      simp only [if_neg heq, List.mem_cons, hne, false_or]

theorem run_checkAt_only (h : x.isOnly rules op = true) :
    (rules.checkAt op.context op.nowMs : Action Unit Decision).run =
      .ask (.store (.get x.marker)) (onMarker rules x op) := by
  simp only [Meter.isOnly, Bool.and_eq_true, decide_eq_true_eq, List.all_eq_true] at h
  have hrun := run_checkDimensions_only h.2 (List.Subset.refl _) (by decide)
  rw [if_pos (Dimension.mem_all _), run_checkDimension] at hrun
  exact hrun

theorem onMarker_none (h : x.isOnly rules op = true) :
    onMarker rules x op (.ok none) = .ask (.store (countRequest x.counter rules.window)) (onCount rules x op) := by
  simp only [Meter.isOnly, Bool.and_eq_true, decide_eq_true_eq] at h
  rw [onMarker, afterMarker, h.1]
  rfl

theorem onCount_of_le {n : Nat} (h : n ≤ x.threshold) : onCount rules x op (.ok n) = .done (.ok .allowed) := by
  rw [onCount, afterCount, Int.toNat_natCast, if_pos h]
  rfl

theorem onCount_of_lt {n : Nat} (h : x.threshold < n) :
    onCount rules x op (.ok n) = .ask (.store (markRequest rules x.dimension x.value op.nowMs)) (onMark rules x) := by
  rw [onCount, afterCount, Int.toNat_natCast, if_neg (Nat.not_le_of_lt h)]
  rfl

inductive Stage where
  | looking
  | waiting
  | counting
  | marking
  | passed
  | barred
deriving DecidableEq

def Stage.isAhead : Stage → Bool
  | .looking | .counting => true
  | _ => false

def stageOf : Program Unit (Except Failure Decision) → Stage
  | .ask (.store (.get _)) _ => .looking
  | .ask (.store (.increment ..)) _ => .counting
  | .ask (.store (.set ..)) _ => .marking
  | .ask _ _ => .waiting
  | .done (.ok decision) => if decision.isBlocked then .barred else .passed
  | .done (.error _) => .barred

theorem stageOf_called (h : x.isOnly rules op = true) : stageOf ((x.traffic rules).program op) = .looking := by
  show stageOf (rules.checkAt op.context op.nowMs).run = .looking
  rw [run_checkAt_only h]
  rfl

/-- Where a call can stand whose requests are all served. -/
inductive Stands (rules : Rules) (x : Meter) (op : Call) : Program Unit (Except Failure Decision) → Prop
  | looking : Stands rules x op (.ask (.store (.get x.marker)) (onMarker rules x op))
  | waiting : Stands rules x op (.ask (.store (.ttlRemaining x.marker)) (onWait rules x))
  | counting : Stands rules x op (.ask (.store (countRequest x.counter rules.window)) (onCount rules x op))
  | marking : Stands rules x op
    (.ask (.store (markRequest rules x.dimension x.value op.nowMs)) (onMark rules x))
  | passed : Stands rules x op (.done (.ok .allowed))
  | barred (ms : Nat) : Stands rules x op (.done (.ok ⟨true, some x.dimension, ms⟩))

theorem Stands.asks_store {q : Ask} {next : q.Answer Unit → Program Unit (Except Failure Decision)}
    (h : Stands rules x op (.ask q next)) : ∃ r, q = .store r := by
  cases h with
  | looking | waiting | counting | marking => exact ⟨_, rfl⟩

/-- The count is `n`, as many calls as it says were allowed up to the threshold, and no call is counted twice. Up to the
threshold there is no marker, and no call has been turned away. -/
structure Metered (rules : Rules) (x : Meter) (start : Instant) (p : Pool Call Unit (Except Failure Decision)) (n : Nat) :
    Prop where
  since : start.nanos ≤ p.now.nanos
  counts : p.memory.Counts p.now x.counter n (start.nanos + rules.window.nanos)
  stands : ∀ task ∈ p.tasks, x.isOnly rules task.op = true ∧ task.status = .waiting ∧ Stands rules x task.op task.rest
  passed : p.tasks.countP (fun task => stageOf task.rest = .passed) = min n x.threshold
  ahead : n + p.tasks.countP (fun task => (stageOf task.rest).isAhead) ≤ p.tasks.length
  early : n ≤ x.threshold → p.memory.Shows p.now x.marker none ∧
    ∀ task ∈ p.tasks, (stageOf task.rest).isAhead = true ∨ stageOf task.rest = .passed

theorem countP_set_add {α : Type} (test : α → Bool) {l : List α} {i : Nat} {old : α} (h : l[i]? = some old) (new : α) :
    (l.set i new).countP test + (if test old then 1 else 0) = l.countP test + if test new then 1 else 0 := by
  obtain ⟨hlt, rfl⟩ := List.getElem?_eq_some_iff.1 h
  have hle := List.boole_getElem_le_countP (p := test) hlt
  rw [List.countP_set hlt]
  omega

namespace Metered
variable {start : Instant} {p : Pool Call Unit (Except Failure Decision)} {n n' : Nat} {m' : Memory}

theorem note (h : Metered rules x start p n) {i : Nat} {task : Task Call Unit (Except Failure Decision)}
    (ht : p.tasks[i]? = some task) {rest : Program Unit (Except Failure Decision)} (hstands : Stands rules x task.op rest)
    (hcounts : m'.Counts p.now x.counter n' (start.nanos + rules.window.nanos))
    (hpassed : min n' x.threshold + (if stageOf task.rest = .passed then 1 else 0) =
      min n x.threshold + if stageOf rest = .passed then 1 else 0)
    (hahead : n' + (if (stageOf rest).isAhead then 1 else 0) ≤ n + if (stageOf task.rest).isAhead then 1 else 0)
    (hearly : n' ≤ x.threshold → n ≤ x.threshold ∧ m'.Shows p.now x.marker none ∧
      ((stageOf rest).isAhead = true ∨ stageOf rest = .passed))
    (what : Happening Unit) (result : Option (Except Failure Decision)) :
    Metered rules x start ({ p with memory := m' }.note i task.op rest .waiting what result) n' where
  since := h.since
  counts := hcounts
  stands := by
    intro other hother
    rcases List.mem_or_eq_of_mem_set hother with hmem | rfl
    · exact h.stands other hmem
    · exact ⟨(h.stands task (List.mem_of_getElem? ht)).1, rfl, hstands⟩
  passed := by
    have hset := countP_set_add (fun task => decide (stageOf task.rest = .passed)) ht ⟨task.op, rest, .waiting⟩
    have hold := h.passed
    simp only [decide_eq_true_eq] at hset
    show (p.tasks.set i ⟨task.op, rest, .waiting⟩).countP _ = _
    omega
  ahead := by
    have hset := countP_set_add (fun task => (stageOf task.rest).isAhead) ht ⟨task.op, rest, .waiting⟩
    have hold := h.ahead
    show n' + (p.tasks.set i ⟨task.op, rest, .waiting⟩).countP _ ≤ (p.tasks.set i ⟨task.op, rest, .waiting⟩).length
    rw [List.length_set]
    dsimp only at hset
    omega
  early := by
    intro hn
    obtain ⟨hn, hmarker, hstage⟩ := hearly hn
    refine ⟨hmarker, ?_⟩
    intro other hother
    rcases List.mem_or_eq_of_mem_set hother with hmem | rfl
    · exact (h.early hn).2 other hmem
    · exact hstage

theorem serve_count (h : Metered rules x start p n) (hnow : p.now.nanos < start.nanos + rules.window.nanos) :
    (p.memory.serve p.now (countRequest x.counter rules.window)).1 = .ok (.ok ((n + 1 : Nat) : Int)) ∧
        (p.memory.serve p.now (countRequest x.counter rules.window)).2.Counts p.now x.counter (n + 1)
          (start.nanos + rules.window.nanos) ∨
      Store.Uncounted p.now x.counter rules.window n (p.memory.serve p.now (countRequest x.counter rules.window)).1 ∧
        (p.memory.serve p.now (countRequest x.counter rules.window)).2.Counts p.now x.counter n
          (start.nanos + rules.window.nanos) := by
  have hsince := h.since
  exact h.counts.serve (by omega) fun _ => by omega

/-- A call that is neither ahead nor passed shows that the threshold is used up. -/
theorem late (h : Metered rules x start p n) {i : Nat} {task : Task Call Unit (Except Failure Decision)}
    (ht : p.tasks[i]? = some task) (hahead : (stageOf task.rest).isAhead = false)
    (hpassed : stageOf task.rest ≠ .passed) : ¬ n ≤ x.threshold := by
  intro hn
  rcases (h.early hn).2 task (List.mem_of_getElem? ht) with hstage | hstage
  · rw [hahead] at hstage
    cases hstage
  · exact hpassed hstage

section Served
variable {i : Nat} {status : Status}

theorem looked (h : Metered rules x start p n)
    (ht : p.tasks[i]? = some ⟨op, .ask (.store (.get x.marker)) (onMarker rules x op), status⟩) {found : Option String}
    (hserve : p.memory.serve p.now (.get x.marker) = (.ok (.ok found), m')) :
    Metered rules x start
      ({ p with memory := m' }.answer i op (.store (.get x.marker)) (.ok found) (onMarker rules x op)) n := by
  have hcounts := h.counts.kept (Store.Request.leaves_of_reads rfl) hserve
  -- Who finds a marker has come after the threshold was used up.
  have hmarker : n ≤ x.threshold → m'.Shows p.now x.marker none ∧ found = none := by
    intro hn
    have hagrees := Memory.serve_agrees (h.early hn).1 (rfl : (Store.Request.get x.marker).key? = some x.marker)
    rw [hserve] at hagrees
    exact ⟨hagrees.shows, Except.ok.inj (Except.ok.inj hagrees.outcome)⟩
  cases found with
  | none =>
    have hop : x.isOnly rules op = true := (h.stands _ (List.mem_of_getElem? ht)).1
    rw [Pool.answer, onMarker_none hop]
    exact h.note ht .counting hcounts rfl (Nat.le_refl _) (fun hn => ⟨hn, (hmarker hn).1, .inl rfl⟩) ..
  | some text =>
    have hlate : ¬ n ≤ x.threshold := fun hn => by cases (hmarker hn).2
    exact h.note ht .waiting hcounts rfl (by simp [stageOf, Stage.isAhead]) (fun hn => absurd hn hlate) ..

theorem waited (h : Metered rules x start p n)
    (ht : p.tasks[i]? = some ⟨op, .ask (.store (.ttlRemaining x.marker)) (onWait rules x), status⟩)
    {left : Option Duration} (hserve : p.memory.serve p.now (.ttlRemaining x.marker) = (.ok (.ok left), m')) :
    Metered rules x start
      ({ p with memory := m' }.answer i op (.store (.ttlRemaining x.marker)) (.ok left) (onWait rules x)) n := by
  have hcounts := h.counts.kept (Store.Request.leaves_of_reads rfl) hserve
  have hlate := h.late ht rfl (by simp [stageOf])
  exact h.note ht (.barred _) hcounts rfl (Nat.le_refl _) (fun hn => absurd hn hlate) ..

theorem marked (h : Metered rules x start p n)
    (ht : p.tasks[i]? =
      some ⟨op, .ask (.store (markRequest rules x.dimension x.value op.nowMs)) (onMark rules x), status⟩)
    (hserve : p.memory.serve p.now (markRequest rules x.dimension x.value op.nowMs) = (.ok (.ok ()), m')) :
    Metered rules x start ({ p with memory := m' }.answer i op
      (.store (markRequest rules x.dimension x.value op.nowMs)) (.ok ()) (onMark rules x)) n := by
  have hcounts := h.counts.kept (mark_leaves ..) hserve
  have hlate := h.late ht rfl (by simp [stageOf])
  exact h.note ht (.barred _) hcounts rfl (Nat.le_refl _) (fun hn => absurd hn hlate) ..

theorem counted (h : Metered rules x start p n) (hnow : p.now.nanos < start.nanos + rules.window.nanos)
    (ht : p.tasks[i]? = some ⟨op, .ask (.store (countRequest x.counter rules.window)) (onCount rules x op), status⟩)
    {count : Int} (hserve : p.memory.serve p.now (countRequest x.counter rules.window) = (.ok (.ok count), m')) :
    Metered rules x start ({ p with memory := m' }.answer i op (.store (countRequest x.counter rules.window)) (.ok count)
      (onCount rules x op)) (n + 1) := by
  have hserved := h.serve_count hnow
  rw [hserve] at hserved
  rcases hserved with ⟨hcount, hcounts⟩ | ⟨hcount, _⟩
  · obtain rfl : count = ((n + 1 : Nat) : Int) := Except.ok.inj (Except.ok.inj hcount)
    -- Past the threshold the count says nothing of the marker any more, so that it may be written from here on.
    by_cases hle : n + 1 ≤ x.threshold
    · have hmarker : m'.Shows p.now x.marker none := by
        have hleaves : (countRequest x.counter rules.window).leaves x.marker = true := count_leaves ..
        exact (h.early (by omega)).1.kept hleaves hserve
      rw [Pool.answer, onCount_of_le hle]
      refine h.note ht .passed hcounts ?_ ?_ ?_ ..
      · simp [stageOf, Decision.allowed]
        omega
      · simp [stageOf, Stage.isAhead, Decision.allowed]
      · exact fun _ => ⟨by omega, hmarker, .inr rfl⟩
    · rw [Pool.answer, onCount_of_lt (Nat.lt_of_not_le hle)]
      refine h.note ht .marking hcounts ?_ ?_ ?_ ..
      · simp [stageOf]
        omega
      · simp [stageOf, Stage.isAhead]
      · exact fun hn => absurd hn hle
  · exact absurd rfl (hcount.ne_ok count)

theorem answered (h : Metered rules x start p n) (hnow : p.now.nanos < start.nanos + rules.window.nanos)
    {r : Store.Request} {next : (Ask.store r).Answer Unit → Program Unit (Except Failure Decision)} {reply : r.Reply}
    (ht : p.tasks[i]? = some ⟨op, .ask (.store r) next, status⟩)
    (hserve : p.memory.serve p.now r = (.ok (.ok reply), m')) :
    ∃ n', Metered rules x start ({ p with memory := m' }.answer i op (.store r) (.ok reply) next) n' := by
  have hstands : Stands rules x op (.ask (.store r) next) := (h.stands _ (List.mem_of_getElem? ht)).2.2
  cases hstands with
  | looking => exact ⟨n, h.looked ht hserve⟩
  | waiting => exact ⟨n, h.waited ht hserve⟩
  | counting => exact ⟨n + 1, h.counted hnow ht hserve⟩
  | marking => exact ⟨n, h.marked ht hserve⟩

end Served

theorem called (h : Metered rules x start p n) {op : Call} (hop : x.isOnly rules op = true) :
    Metered rules x start { p with tasks := p.tasks ++ [⟨op, (x.traffic rules).program op, .waiting⟩] } n where
  since := h.since
  counts := h.counts
  stands := by
    intro task htask
    rcases List.mem_append.1 htask with hmem | hmem
    · exact h.stands task hmem
    · obtain rfl := List.mem_singleton.1 hmem
      refine ⟨hop, rfl, ?_⟩
      show Stands rules x op (rules.checkAt op.context op.nowMs).run
      rw [run_checkAt_only hop]
      exact .looking
  passed := by
    show (p.tasks ++ [_]).countP _ = _
    rw [List.countP_append, h.passed, List.countP_singleton]
    simp [stageOf_called hop]
  ahead := by
    have hold := h.ahead
    have hlooking : Stage.looking.isAhead = true := rfl
    show n + (p.tasks ++ [_]).countP _ ≤ (p.tasks ++ [_]).length
    rw [List.countP_append, List.countP_singleton, List.length_append, List.length_singleton, stageOf_called hop,
      if_pos hlooking]
    omega
  early := by
    intro hn
    refine ⟨(h.early hn).1, ?_⟩
    intro task htask
    rcases List.mem_append.1 htask with hmem | hmem
    · exact (h.early hn).2 task hmem
    · obtain rfl := List.mem_singleton.1 hmem
      left
      rw [stageOf_called hop]
      rfl

theorem passed_by (h : Metered rules x start p n) {r : Store.Request} (hr : r.leaves x.counter && r.leaves x.marker) :
    Metered rules x start { p with memory := (p.memory.serve p.now r).2 } n := by
  obtain ⟨hcounter, hmarker⟩ := Bool.and_eq_true_iff.1 hr
  refine { h with counts := h.counts.kept hcounter rfl, early := ?_ }
  intro hn
  exact ⟨(h.early hn).1.kept hmarker rfl, (h.early hn).2⟩

theorem later (h : Metered rules x start p n) (d : Duration) :
    Metered rules x start { p with now := p.now.advance d } n := by
  have hle : p.now.nanos ≤ (p.now.advance d).nanos := Nat.le_add_right ..
  refine { h with since := Nat.le_trans h.since hle, counts := h.counts.later hle, early := ?_ }
  intro hn
  exact ⟨(h.early hn).1.later hle, (h.early hn).2⟩

/-- Within the lifetime of the counter every change keeps a meter, if the store serves what it is asked. -/
theorem change {p' : Pool Call Unit (Except Failure Decision)} (h : Metered rules x start p n)
    (hnow : p.now.nanos < start.nanos + rules.window.nanos) (hserved : ∀ e ∈ p'.history, isServed e)
    (hchange : Pool.Change (x.traffic rules) p p') : ∃ n', Metered rules x start p' n' := by
  cases hchange with
  | none => exact ⟨n, h⟩
  | call op hop => exact ⟨n, h.called hop⟩
  | aside r hr => exact ⟨n, h.passed_by hr⟩
  | advance d => exact ⟨n, h.later d⟩
  | answer ht hgranted =>
    obtain ⟨r, reply, hwhat⟩ := isServed_iff.1 (hserved _ (List.mem_append_right _ List.mem_cons_self))
    cases hwhat
    exact h.answered hnow ht hgranted.2
  | crash ht hserve =>
    obtain ⟨r, reply, hwhat⟩ := isServed_iff.1 (hserved _ (List.mem_append_right _ List.mem_cons_self))
    cases hwhat
  | begin ht =>
    obtain ⟨r, reply, hwhat⟩ := isServed_iff.1 (hserved _ (List.mem_append_right _ List.mem_cons_self))
    cases hwhat

theorem serves (h : Metered rules x start p n) (hnow : p.now.nanos < start.nanos + rules.window.nanos)
    (hfits : rules.Fit p.now) (hroom : p.tasks.length ≤ Memory.counterBounds.high) {i : Nat}
    {r : Store.Request} {next : (Ask.store r).Answer Unit → Program Unit (Except Failure Decision)} {status : Status}
    (ht : p.tasks[i]? = some ⟨op, .ask (.store r) next, status⟩) :
    ∃ reply, (p.memory.serve p.now r).1 = .ok (.ok reply) := by
  have hmem := List.mem_of_getElem? ht
  have hstands : Stands rules x op (.ask (.store r) next) := (h.stands _ hmem).2.2
  have hfound := p.memory.shows_find? p.now x.marker
  cases hstands with
  | looking => exact ⟨_, (Memory.serve_agrees hfound rfl).outcome⟩
  | waiting => exact ⟨_, (Memory.serve_agrees hfound rfl).outcome⟩
  | marking =>
    have hset := Store.Cell.serve_set_of_fits hfits.block hfits.blockEnds (p.memory.entries.find? x.marker) x.marker
      (toString op.nowMs)
    exact ⟨(), (Memory.serve_agrees hfound rfl).outcome.trans (congrArg Prod.fst hset)⟩
  | counting =>
    rcases h.serve_count hnow with ⟨hcount, _⟩ | ⟨hcount, _⟩
    · exact ⟨_, hcount⟩
    · rcases hcount.cause with hshort | hends | hover
      · exact absurd hshort hfits.window
      · have hwindow := hfits.windowEnds
        rw [hends] at hwindow
        cases hwindow
      · -- This call is still ahead, so fewer than all have been counted.
        have hthis : 0 < p.tasks.countP fun task => (stageOf task.rest).isAhead := List.countP_pos_iff.2 ⟨_, hmem, rfl⟩
        have hahead := h.ahead
        have hzero := Bounds.contains_iff.1 Store.counterBounds_zero
        rw [Bounds.contains_iff.2 ⟨by omega, by omega⟩] at hover
        cases hover

theorem change_served {p' : Pool Call Unit (Except Failure Decision)} (h : Metered rules x start p n)
    (hnow : p.now.nanos < start.nanos + rules.window.nanos) (hfits : rules.Fit p.now)
    (hroom : p.tasks.length ≤ Memory.counterBounds.high) (hserved : ∀ e ∈ p.history, isServed e)
    (hchange : Pool.Change (x.traffic rules) p p') : ∀ e ∈ p'.history, isServed e := by
  intro e he
  cases hchange with
  | none | call | aside | advance => exact hserved e he
  | @answer i op q next status a m ht hgranted =>
    rcases List.mem_append.1 he with hmem | hmem
    · exact hserved e hmem
    · obtain rfl := List.mem_singleton.1 hmem
      have hstands : Stands rules x op (.ask q next) := (h.stands _ (List.mem_of_getElem? ht)).2.2
      obtain ⟨r, rfl⟩ := hstands.asks_store
      obtain ⟨reply, hreply⟩ := h.serves hnow hfits hroom ht
      rw [hgranted.2] at hreply
      exact isServed_iff.2 ⟨r, reply, congrArg _ (Except.ok.inj hreply)⟩
  | @crash i op r next c m ht hserve =>
    obtain ⟨reply, hreply⟩ := h.serves hnow hfits hroom ht
    rw [hserve] at hreply
    cases hreply
  | @begin i op next ht =>
    have hstands : Stands rules x op (.ask .work next) := (h.stands _ (List.mem_of_getElem? ht)).2.2
    cases hstands

end Metered

theorem metered_opened {m : Memory} {now : Instant} (hcounter : m.visible? now x.counter = none)
    (hmarker : m.visible? now x.marker = none) : Metered rules x now (.opened m now) 0 := by
  refine ⟨Nat.le_refl _, ⟨none, Memory.shows_none hcounter, Store.Cell.counts_none _⟩, ?_, ?_, ?_, ?_⟩
  · simp [Pool.opened]
  · simp [Pool.opened]
  · simp [Pool.opened]
  · exact fun _ => ⟨Memory.shows_none hmarker, by simp [Pool.opened]⟩

theorem metered_run {m : Memory} {now : Instant} (hcounter : m.visible? now x.counter = none)
    (hmarker : m.visible? now x.marker = none) (moves : List (Move Call Unit))
    (hlive : ((Pool.opened m now).run (x.traffic rules) moves).now.nanos < now.nanos + rules.window.nanos)
    (hserved : ∀ e ∈ ((Pool.opened m now).run (x.traffic rules) moves).history, isServed e) :
    ∃ n, Metered rules x now ((Pool.opened m now).run (x.traffic rules) moves) n := by
  revert hlive hserved
  refine Pool.run_induction (P := fun p => p.now.nanos < now.nanos + rules.window.nanos →
    (∀ e ∈ p.history, isServed e) → ∃ n, Metered rules x now p n) ?_ ?_ moves
  · intro p p' ih hchange hlive hserved
    have hlive' : p.now.nanos < now.nanos + rules.window.nanos := Nat.lt_of_le_of_lt hchange.now_le hlive
    obtain ⟨n, h⟩ := ih hlive' fun e he => hserved e (hchange.history_subset he)
    exact h.change hlive' hserved hchange
  · exact fun _ _ => ⟨0, metered_opened hcounter hmarker⟩

/-- Nothing fails of itself: with lifetimes that fit, the store serves all that the calls ask, up to the largest number of
them that a counter can hold. -/
theorem all_served {m : Memory} {now : Instant} (hcounter : m.visible? now x.counter = none)
    (hmarker : m.visible? now x.marker = none)
    (hfits : ∀ t : Instant, t.nanos < now.nanos + rules.window.nanos → rules.Fit t) (moves : List (Move Call Unit))
    (hlive : ((Pool.opened m now).run (x.traffic rules) moves).now.nanos < now.nanos + rules.window.nanos)
    (hroom : ((Pool.opened m now).run (x.traffic rules) moves).tasks.length ≤ Memory.counterBounds.high) :
    ∀ e ∈ ((Pool.opened m now).run (x.traffic rules) moves).history, isServed e := by
  suffices hboth : (∀ e ∈ ((Pool.opened m now).run (x.traffic rules) moves).history, isServed e) ∧
      ∃ n, Metered rules x now ((Pool.opened m now).run (x.traffic rules) moves) n from hboth.1
  revert hlive hroom
  refine Pool.run_induction (P := fun p => p.now.nanos < now.nanos + rules.window.nanos →
    (p.tasks.length : Int) ≤ Memory.counterBounds.high →
      (∀ e ∈ p.history, isServed e) ∧ ∃ n, Metered rules x now p n) ?_ ?_ moves
  · intro p p' ih hchange hlive hroom
    have hlive' : p.now.nanos < now.nanos + rules.window.nanos := Nat.lt_of_le_of_lt hchange.now_le hlive
    have hlength := hchange.length_tasks_le
    obtain ⟨hserved, n, h⟩ := ih hlive' (by omega)
    have hserved' := h.change_served hlive' (hfits _ hlive') (by omega) hserved hchange
    exact ⟨hserved', h.change hlive' hserved' hchange⟩
  · exact fun _ _ => ⟨by simp [Pool.opened], 0, metered_opened hcounter hmarker⟩

/-- The call has come to a decision that blocks by no dimension and tells no wait. -/
def isLetThrough (task : Task Call Unit (Except Failure Decision)) : Bool :=
  match task.rest.result? with
  | some (.ok decision) => !decision.isBlocked && decision.blockedBy.isNone && decision.retryAfterMs == 0
  | _ => false

namespace Metered
variable {start : Instant} {p : Pool Call Unit (Except Failure Decision)} {n : Nat}

/-- Where no call can go on, each has come to its end. -/
theorem result_of_ended (h : Metered rules x start p n) (hends : ∀ i, p.step (x.traffic rules) (.store i) = p)
    {task : Task Call Unit (Except Failure Decision)} (hmem : task ∈ p.tasks) :
    task.rest.result? = some (.ok .allowed) ∧ stageOf task.rest = .passed ∨
      (∃ ms, task.rest.result? = some (.ok ⟨true, some x.dimension, ms⟩)) ∧ stageOf task.rest = .barred := by
  obtain ⟨op, rest, status⟩ := task
  obtain rfl : status = .waiting := (h.stands _ hmem).2.1
  have hstands : Stands rules x op rest := (h.stands _ hmem).2.2
  obtain ⟨i, ht⟩ := List.mem_iff_getElem?.1 hmem
  have hstill : ∀ {r : Store.Request} {next : (Ask.store r).Answer Unit → Program Unit (Except Failure Decision)},
      rest ≠ .ask (.store r) next := by
    rintro r next rfl
    have hlength := Pool.length_step_store (s := x.traffic rules) ht
    rw [hends i] at hlength
    omega
  cases hstands with
  | passed => exact .inl ⟨rfl, rfl⟩
  | barred ms => exact .inr ⟨⟨ms, rfl⟩, rfl⟩
  | looking | waiting | counting | marking => exact absurd rfl hstill

theorem count_of_ended (h : Metered rules x start p n) (hends : ∀ i, p.step (x.traffic rules) (.store i) = p) :
    p.tasks.countP isLetThrough = min n x.threshold ∧ n ≤ p.tasks.length ∧ (n ≤ x.threshold → n = p.tasks.length) := by
  have hpassed : p.tasks.countP isLetThrough = min n x.threshold := by
    rw [← h.passed]
    refine List.countP_congr ?_
    intro task hmem
    rcases h.result_of_ended hends hmem with ⟨hres, hstage⟩ | ⟨⟨ms, hres⟩, hstage⟩
    · simp [isLetThrough, hres, hstage, Decision.allowed]
    · simp [isLetThrough, hres, hstage]
  have hahead := h.ahead
  refine ⟨hpassed, by omega, ?_⟩
  intro hn
  -- Within the threshold nobody has been turned away, and whoever was ahead has been counted by now.
  have hall : p.tasks.countP isLetThrough = p.tasks.length := by
    refine List.countP_eq_length.2 ?_
    intro task hmem
    rcases h.result_of_ended hends hmem with ⟨hres, _⟩ | ⟨_, hstage⟩
    · simp [isLetThrough, hres, Decision.allowed]
    · rcases (h.early hn).2 task hmem with hstage' | hstage' <;> simp [hstage, Stage.isAhead] at hstage'
  omega

end Metered

/-- Whatever the order in which the calls are served: in a run that goes no further every call has come to its end, as
many as the threshold says are allowed and all others blocked by the dimension. The counter has counted all of them up to
the threshold, and more than the threshold if there are more. -/
theorem admits_exactly_threshold (rules : Rules) (x : Meter) (m : Memory) (now : Instant)
    (hcounter : m.visible? now x.counter = none) (hmarker : m.visible? now x.marker = none)
    (moves : List (Move Call Unit)) :
    let p := (Pool.opened m now).run (x.traffic rules) moves
    p.now.nanos < now.nanos + rules.window.nanos → (∀ e ∈ p.history, isServed e) →
    (∀ i, p.step (x.traffic rules) (.store i) = p) →
    p.tasks.countP isLetThrough = min p.tasks.length x.threshold ∧
    (∀ task ∈ p.tasks, task.rest.result? = some (.ok ⟨false, none, 0⟩) ∨
      ∃ ms, task.rest.result? = some (.ok ⟨true, some x.dimension, ms⟩)) ∧
    ∃ n : Nat, (p.memory.visible? p.now x.counter).map Store.Entry.value =
        (if n = 0 then none else some (toString (n : Int))) ∧
      (p.tasks.length ≤ x.threshold → n = p.tasks.length) ∧
      (x.threshold < p.tasks.length → x.threshold < n ∧ n ≤ p.tasks.length) := by
  intro p hlive hserved hends
  obtain ⟨n, h⟩ : ∃ n, Metered rules x now p n := metered_run hcounter hmarker moves hlive hserved
  obtain ⟨hpassed, hle, hcount⟩ := h.count_of_ended hends
  have hvisible := h.counts.visible (by omega)
  refine ⟨by omega, ?_, n, hvisible, by omega, by omega⟩
  intro task hmem
  rcases h.result_of_ended hends hmem with ⟨hres, _⟩ | ⟨hres, _⟩
  · exact .inl hres
  · exact .inr hres

def narrowRules : Rules := ⟨.ofMillis 4, .ofMillis 2, .ofMillis 1, ⟨0, 1, 0, 0⟩, {}⟩

def gate : Meter := ⟨.ip, "a", 0, 1⟩

/-- Two calls look before either is counted; the third finds the marker of the second. -/
def crowd : List (Move Call Unit) :=
  let come (ms : Int) : Move Call Unit := .call ⟨{ ip := some "a" }, ms⟩
  [come 0, come 0, .store 0, .store 1, .store 0, .advance (.ofMillis 1), come 1, .store 1, .store 1, .store 2, .store 2]

theorem crowd_admits_one :
    let p := (Pool.opened .empty ⟨0⟩).run (gate.traffic narrowRules) crowd
    Memory.empty.visible? ⟨0⟩ gate.counter = none ∧ Memory.empty.visible? ⟨0⟩ gate.marker = none ∧
      p.now.nanos < 0 + narrowRules.window.nanos ∧ (∀ e ∈ p.history, isServed e) ∧
      (∀ i, p.step (gate.traffic narrowRules) (.store i) = p) ∧ p.tasks.length = 3 ∧
      p.tasks.countP isLetThrough = min p.tasks.length 1 ∧
      (p.memory.visible? p.now gate.counter).map Store.Entry.value = some "2" := by
  intro p
  have hlive : p.now.nanos < 0 + narrowRules.window.nanos := by decide
  have hserved : ∀ e ∈ p.history, isServed e := by decide +kernel
  have hends : ∀ i, p.step (gate.traffic narrowRules) (.store i) = p
    | 0 | 1 | 2 => rfl
    | i + 3 => rfl
  exact ⟨rfl, rfl, hlive, hserved, hends, rfl,
    (admits_exactly_threshold narrowRules gate .empty ⟨0⟩ rfl rfl crowd hlive hserved hends).1, by decide +kernel⟩

end Coordination.RateLimit
