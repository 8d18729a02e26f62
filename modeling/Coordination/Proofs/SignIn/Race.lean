import Coordination.Proofs.Pool.History
import Coordination.Proofs.SignIn.Course

/-! # Failures side by side

Failures of one subject are recorded at one instant, their single calls to the store in any order. Each is counted on its own
and writes the lock for its own count later, over whatever lock is there by then. So the lock in force is the one that
was written last. It is never longer than the one for the highest count, and it is that one if the locks are written in
the order of the counts.
-/
namespace Coordination.SignIn
open Store (Cell Crash Memory countRequest)

abbrev Outcome := Except Failure FailureOutcome

abbrev Event := Coordination.Event Unit Unit Outcome

/-- Any number of failures of one subject, next to requests that leave its records alone. -/
def traffic (rules : Rules) (s : Subject) : Traffic Unit Unit Outcome where
  program _ := (rules.recordFailure s).run
  admits _ _ := true
  works _ := true
  aside r := r.leaves s.knownGoodKey && r.leaves s.failuresKey && r.leaves s.lockedKey

def lockOf? (e : Event) : Option Int :=
  match e.what.request?, e.result with
  | some (.set ..), some (.ok (.recorded n _)) => some n
  | _, _ => none

/-- The counts in the order in which their locks were written. -/
def locksOf (history : List Event) : List Int := history.filterMap lockOf?

def countOf? : Program Unit Outcome → Option Int
  | .ask (.store (.set ..)) next =>
    match next (.ok ()) with
    | .done (.ok (.recorded n _)) => some n
    | _ => none
  | .done (.ok (.recorded n _)) => some n
  | _ => none

def lockCell (rules : Rules) (now : Instant) (locks : List Int) : Cell :=
  locks.getLast?.map fun n =>
    ⟨toString (rules.policy.lockout n), some (now.advance (.ofSeconds (rules.policy.lockout n)))⟩

/-- Where a call can stand while the count is `top` and the locks are written. -/
inductive Stands (rules : Rules) (s : Subject) (top : Nat) (locks : List Int) : Program Unit Outcome → Prop
  | looking : Stands rules s top locks (.ask (.store (.get s.knownGoodKey)) (afterKnown rules s))
  | counting : Stands rules s top locks (.ask (.store (countRequest s.failuresKey rules.failureTtl)) (afterCount rules s))
  | locking (n : Int) (hle : n ≤ top) (hlock : rules.policy.lockout n ≠ 0) :
    Stands rules s top locks (.ask (.store (lockRequest s (rules.policy.lockout n))) (afterLock rules n))
  | recorded (n : Int) (hle : n ≤ top) (hlocked : rules.policy.lockout n ≠ 0 → n ∈ locks) :
    Stands rules s top locks (.done (.ok (recorded rules n)))
  | failed (failure : Failure) : Stands rules s top locks (.done (.error failure))

variable {rules : Rules} {s : Subject} {now : Instant}

theorem Stands.mono {top top' : Nat} {locks locks' : List Int} {rest : Program Unit Outcome} (h : Stands rules s top locks rest)
    (htop : top ≤ top') (hlocks : locks ⊆ locks') : Stands rules s top' locks' rest := by
  cases h with
  | looking => exact .looking
  | counting => exact .counting
  | locking n hle hlock => exact .locking n (by omega) hlock
  | recorded n hle hlocked => exact .recorded n (by omega) fun hlock => hlocks (hlocked hlock)
  | failed failure => exact .failed failure

theorem locksOf_concat (history : List Event) (e : Event) : locksOf (history ++ [e]) = locksOf history ++ (lockOf? e).toList := by
  unfold locksOf
  rw [List.filterMap_append]
  cases h : lockOf? e <;> simp [h]

/-- The count is `top`, brought about by some call if it has grown, and the locks written so far are for such counts. -/
structure Raced (rules : Rules) (s : Subject) (now : Instant) (first : Nat) (p : Pool Unit Unit Outcome) (top : Nat) : Prop where
  still : p.now = now
  unknown : p.memory.Shows now s.knownGoodKey none
  counts : p.memory.Counts now s.failuresKey top (now.nanos + 1)
  lock : p.memory.Shows now s.lockedKey (lockCell rules now (locksOf p.history))
  locks : ∀ n ∈ locksOf p.history, n ≤ top ∧ rules.policy.lockout n ≠ 0
  stands : ∀ task ∈ p.tasks, Stands rules s top (locksOf p.history) task.rest
  reached : first < top → ∃ task ∈ p.tasks, countOf? task.rest = some top

namespace Raced
variable {first top top' : Nat} {p : Pool Unit Unit Outcome} {m' : Memory} {i : Nat} {task : Task Unit Unit Outcome}
  {rest : Program Unit Outcome} {status : Status} {what : Happening Unit} {result : Option Outcome}

theorem note (h : Raced rules s now first p top) (ht : p.tasks[i]? = some task) {locks : List Int}
    (hlocks : locksOf p.history ++ (lockOf? ⟨i, task.op, p.now, what, result⟩).toList = locks) (htop : top ≤ top')
    (hlock : ∀ n, lockOf? ⟨i, task.op, p.now, what, result⟩ = some n → n ≤ top' ∧ rules.policy.lockout n ≠ 0)
    (hstands : Stands rules s top' locks rest)
    (hreached : countOf? rest = some ↑top' ∨ top' = top ∧ (countOf? task.rest = some ↑top → countOf? rest = some ↑top))
    (hunknown : m'.Shows now s.knownGoodKey none) (hcounts : m'.Counts now s.failuresKey top' (now.nanos + 1))
    (hlocked : m'.Shows now s.lockedKey (lockCell rules now locks)) :
    Raced rules s now first (({ p with memory := m' } : Pool Unit Unit Outcome).note i task.op rest status what result)
      top' := by
  have hlocks' : locksOf (p.history ++ [⟨i, task.op, p.now, what, result⟩]) = locks := by rw [locksOf_concat, hlocks]
  have hsub : locksOf p.history ⊆ locks := hlocks ▸ List.subset_append_left ..
  refine ⟨h.still, hunknown, hcounts, ?_, ?_, ?_, ?_⟩
  · simp only [Pool.note, hlocks']
    exact hlocked
  · simp only [Pool.note, hlocks', ← hlocks]
    intro n hn
    rcases List.mem_append.1 hn with hn | hn
    · have hold := h.locks n hn
      exact ⟨by omega, hold.2⟩
    · exact hlock n (Option.mem_toList.1 hn)
  · simp only [Pool.note, hlocks']
    intro other hother
    rcases List.mem_or_eq_of_mem_set hother with hmem | rfl
    · exact (h.stands other hmem).mono htop hsub
    · exact hstands
  · intro hfirst
    have hown := List.mem_set (List.getElem?_eq_some_iff.1 ht).1 (⟨task.op, rest, status⟩ : Task Unit Unit Outcome)
    rcases hreached with hcount | ⟨rfl, hcount⟩
    · exact ⟨_, hown, hcount⟩
    · obtain ⟨other, hother, htop⟩ := h.reached hfirst
      obtain ⟨j, hj⟩ := List.mem_iff_getElem?.1 hother
      by_cases hij : i = j
      · subst hij
        cases ht.symm.trans hj
        exact ⟨_, hown, hcount htop⟩
      · exact ⟨other, List.mem_of_getElem? ((List.getElem?_set_ne hij).trans hj), htop⟩

theorem note_unlocked (h : Raced rules s now first p top) (ht : p.tasks[i]? = some task)
    (hnone : lockOf? ⟨i, task.op, p.now, what, result⟩ = none) (htop : top ≤ top')
    (hstands : Stands rules s top' (locksOf p.history) rest)
    (hreached : countOf? rest = some ↑top' ∨ top' = top ∧ (countOf? task.rest = some ↑top → countOf? rest = some ↑top))
    (hunknown : m'.Shows now s.knownGoodKey none) (hcounts : m'.Counts now s.failuresKey top' (now.nanos + 1))
    (hlocked : m'.Shows now s.lockedKey (lockCell rules now (locksOf p.history))) :
    Raced rules s now first (({ p with memory := m' } : Pool Unit Unit Outcome).note i task.op rest status what result)
      top' := by
  apply h.note ht _ htop _ hstands hreached hunknown hcounts hlocked
  · rw [hnone]
    exact List.append_nil _
  · intro n hn
    rw [hnone] at hn
    cases hn

section Requests
variable {op : Unit} (h : Raced rules s now first p top)
include h

theorem looked (ht : p.tasks[i]? = some ⟨op, .ask (.store (.get s.knownGoodKey)) (afterKnown rules s), status⟩)
    {reply : Except Failure (Option String)} (hserve : p.memory.serve p.now (.get s.knownGoodKey) = (.ok reply, m')) :
    Raced rules s now first
      ({ p with memory := m' }.answer i op (.store (.get s.knownGoodKey)) reply (afterKnown rules s)) top := by
  obtain rfl := h.still
  have hleaves : ∀ key, (Store.Request.get s.knownGoodKey).leaves key = true := fun _ => Store.Request.leaves_of_reads rfl
  obtain rfl : reply = .ok none := by
    have hget := p.memory.serve_get p.now s.knownGoodKey
    rw [hserve, h.unknown p.now (Nat.le_refl _)] at hget
    exact Except.ok.inj hget
  exact h.note_unlocked ht rfl (Nat.le_refl _) .counting (.inr ⟨rfl, nofun⟩)
    (h.unknown.kept (hleaves _) hserve) (h.counts.kept (hleaves _) hserve) (h.lock.kept (hleaves _) hserve)

/-- A request to count leaves the other records alone, and the count as it is unless it is answered by the next one. -/
theorem serve_count {o : Except Crash (Except Failure Int)}
    (hserve : p.memory.serve now (countRequest s.failuresKey rules.failureTtl) = (o, m')) :
    m'.Shows now s.knownGoodKey none ∧ m'.Shows now s.lockedKey (lockCell rules now (locksOf p.history)) ∧
      (o = .ok (.ok ((top + 1 : Nat) : Int)) ∧ m'.Counts now s.failuresKey (top + 1) (now.nanos + 1) ∨
        (∀ n, o ≠ .ok (.ok n)) ∧ m'.Counts now s.failuresKey top (now.nanos + 1)) := by
  have hleaves : ∀ key, s.failuresKey ≠ key → (countRequest s.failuresKey rules.failureTtl).leaves key = true :=
    fun key hne => Store.Request.leaves_of_ne fun heq => hne (Option.some.inj heq)
  have hlater : rules.failureTtl.millis ≠ 0 → (now.nanos + 1 : Int) ≤ now.nanos + rules.failureTtl.nanos := by
    intro hlong
    have hpos : rules.failureTtl.nanos ≠ 0 := fun hzero => hlong (by rw [Duration.millis, hzero]; rfl)
    omega
  have hcount := h.counts.serve (by omega) hlater
  rw [hserve] at hcount
  refine ⟨h.unknown.kept (hleaves _ (failuresKey_ne_knownGoodKey s s)) hserve,
    h.lock.kept (hleaves _ (lockedKey_ne_failuresKey s s).symm) hserve, ?_⟩
  rcases hcount with hcount | ⟨hcount, hsame⟩
  · exact .inl hcount
  · exact .inr ⟨hcount.ne_ok, hsame⟩

theorem counted (ht : p.tasks[i]? =
      some ⟨op, .ask (.store (countRequest s.failuresKey rules.failureTtl)) (afterCount rules s), status⟩)
    {reply : Except Failure Int}
    (hserve : p.memory.serve p.now (countRequest s.failuresKey rules.failureTtl) = (.ok reply, m')) :
    ∃ top', Raced rules s now first ({ p with memory := m' }.answer i op
      (.store (countRequest s.failuresKey rules.failureTtl)) reply (afterCount rules s)) top' := by
  obtain rfl := h.still
  obtain ⟨hunknown, hlocked, ⟨hreply, hcounts⟩ | ⟨hreply, hcounts⟩⟩ := h.serve_count hserve
  · obtain rfl : reply = .ok ((top + 1 : Nat) : Int) := Except.ok.inj hreply
    refine ⟨top + 1, ?_⟩
    rw [Pool.answer, afterCount]
    by_cases hlock : rules.policy.lockout ((top + 1 : Nat) : Int) = 0
    · rw [if_pos hlock]
      exact h.note_unlocked ht rfl (Nat.le_succ top) (.recorded _ (Int.le_refl _) fun hne => absurd hlock hne) (.inl rfl)
        hunknown hcounts hlocked
    · rw [if_neg hlock]
      exact h.note_unlocked ht rfl (Nat.le_succ top) (.locking _ (Int.le_refl _) hlock) (.inl rfl) hunknown hcounts hlocked
  · cases reply with
    | ok n => exact absurd rfl (hreply n)
    | error failure =>
      exact ⟨top, h.note_unlocked ht rfl (Nat.le_refl _) (.failed failure) (.inr ⟨rfl, fun hcount => by cases hcount⟩)
        hunknown hcounts hlocked⟩

theorem serve_lock {seconds : Nat} (hlock : seconds ≠ 0) {o : Except Crash (Except Failure Unit)}
    (hserve : p.memory.serve now (lockRequest s seconds) = (o, m')) :
    m'.Shows now s.knownGoodKey none ∧ m'.Counts now s.failuresKey top (now.nanos + 1) ∧
      (o = .ok (.ok ()) ∧ m'.Shows now s.lockedKey (some ⟨toString seconds, some (now.advance (.ofSeconds seconds))⟩) ∨
        (∃ c, o = .error c) ∧ m'.Shows now s.lockedKey (lockCell rules now (locksOf p.history))) := by
  have hleaves : ∀ key, s.lockedKey ≠ key → (lockRequest s seconds).leaves key = true :=
    fun key hne => Store.Request.leaves_of_ne fun heq => hne (Option.some.inj heq)
  refine ⟨h.unknown.kept (hleaves _ (lockedKey_ne_knownGoodKey s s)) hserve,
    h.counts.kept (hleaves _ (lockedKey_ne_failuresKey s s)) hserve, ?_⟩
  obtain ⟨m'', _, ⟨hset, _, hsame⟩ | ⟨hset, _, hshows⟩⟩ :=
    p.memory.set_cases now s.lockedKey (toString seconds) (millis_ofSeconds_ne hlock)
  · cases hserve.symm.trans hset
    exact .inr ⟨⟨_, rfl⟩, hsame _ h.lock⟩
  · cases hserve.symm.trans hset
    exact .inl ⟨rfl, hshows⟩

theorem locked {n : Int} (hle : n ≤ top) (hlock : rules.policy.lockout n ≠ 0) (ht : p.tasks[i]? =
      some ⟨op, .ask (.store (lockRequest s (rules.policy.lockout n))) (afterLock rules n), status⟩)
    {reply : Except Failure Unit}
    (hserve : p.memory.serve p.now (lockRequest s (rules.policy.lockout n)) = (.ok reply, m')) :
    Raced rules s now first ({ p with memory := m' }.answer i op
      (.store (lockRequest s (rules.policy.lockout n))) reply (afterLock rules n)) top := by
  obtain rfl := h.still
  obtain ⟨hunknown, hcounts, ⟨hreply, hshows⟩ | ⟨⟨c, hcrash⟩, _⟩⟩ := h.serve_lock hlock hserve
  · obtain rfl : reply = .ok () := Except.ok.inj hreply
    refine h.note ht (rfl : _ = locksOf p.history ++ [n]) (Nat.le_refl _) ?_ (.recorded n hle fun _ => by simp) (.inr ⟨rfl, id⟩)
      hunknown hcounts ?_
    · intro k hk
      cases hk
      exact ⟨hle, hlock⟩
    · rw [lockCell, List.getLast?_concat]
      exact hshows
  · cases hcrash

theorem crashed {r : Store.Request} {next : (Ask.store r).Answer Unit → Program Unit Outcome}
    (ht : p.tasks[i]? = some ⟨op, .ask (.store r) next, .waiting⟩) {c : Crash}
    (hserve : p.memory.serve p.now r = (.error c, m')) :
    Raced rules s now first
      (({ p with memory := m' } : Pool Unit Unit Outcome).note i op (.ask (.store r) next) .crashed (.crashed r c) none) top := by
  have hstands := h.stands _ (List.mem_of_getElem? ht)
  have hkept : m'.Shows now s.knownGoodKey none ∧ m'.Counts now s.failuresKey top (now.nanos + 1) ∧
      m'.Shows now s.lockedKey (lockCell rules now (locksOf p.history)) := by
    obtain rfl := h.still
    generalize hrest : Program.ask (.store r) next = rest at hstands
    cases hstands with
    | looking =>
      cases hrest
      have hget := p.memory.serve_get p.now s.knownGoodKey
      rw [hserve] at hget
      cases hget
    | counting =>
      cases hrest
      obtain ⟨hunknown, hlocked, ⟨hreply, _⟩ | ⟨_, hcounts⟩⟩ := h.serve_count hserve
      · cases hreply
      · exact ⟨hunknown, hcounts, hlocked⟩
    | locking n hle hlock =>
      cases hrest
      obtain ⟨hunknown, hcounts, ⟨hreply, _⟩ | ⟨_, hlocked⟩⟩ := h.serve_lock hlock hserve
      · cases hreply
      · exact ⟨hunknown, hcounts, hlocked⟩
    | recorded n hle hlocked => cases hrest
    | failed failure => cases hrest
  have hnone : lockOf? ⟨i, op, p.now, .crashed r c, none⟩ = none := by
    unfold lockOf?
    split
    · next hresult => cases hresult
    · rfl
  exact h.note_unlocked ht hnone (Nat.le_refl _) hstands (.inr ⟨rfl, id⟩) hkept.1 hkept.2.1 hkept.2.2

end Requests

theorem answered (h : Raced rules s now first p top) {op : Unit} {q : Ask} {next : q.Answer Unit → Program Unit Outcome}
    (ht : p.tasks[i]? = some ⟨op, .ask q next, status⟩) {a : q.Answer Unit}
    (hgranted : p.Granted (traffic rules s) q status a m') :
    ∃ top', Raced rules s now first ({ p with memory := m' }.answer i op q a next) top' := by
  have hstands := h.stands _ (List.mem_of_getElem? ht)
  generalize hrest : Program.ask q next = rest at hstands
  cases hstands with
  | looking =>
    cases hrest
    exact ⟨top, h.looked ht hgranted.2⟩
  | counting =>
    cases hrest
    exact h.counted ht hgranted.2
  | locking n hle hlock =>
    cases hrest
    exact ⟨top, h.locked hle hlock ht hgranted.2⟩
  | recorded n hle hlocked => cases hrest
  | failed failure => cases hrest

theorem called (h : Raced rules s now first p top) (op : Unit) :
    Raced rules s now first { p with tasks := p.tasks ++ [⟨op, (traffic rules s).program op, .waiting⟩] } top where
  still := h.still
  unknown := h.unknown
  counts := h.counts
  lock := h.lock
  locks := h.locks
  stands := by
    intro task htask
    rcases List.mem_append.1 htask with hmem | hmem
    · exact h.stands task hmem
    · obtain rfl := List.mem_singleton.1 hmem
      show Stands rules s top _ (rules.recordFailure s).run
      rw [run_recordFailure]
      exact .looking
  reached := by
    intro hfirst
    obtain ⟨task, htask, hcount⟩ := h.reached hfirst
    exact ⟨task, List.mem_append_left _ htask, hcount⟩

/-- While no time passes every change keeps up with the race. -/
theorem change (h : Raced rules s now first p top) {p' : Pool Unit Unit Outcome}
    (hchange : Pool.Change (traffic rules s) p p') (hstill : p'.now = now) : ∃ top', Raced rules s now first p' top' := by
  cases hchange with
  | none => exact ⟨top, h⟩
  | call op _ => exact ⟨top, h.called op⟩
  | answer ht hgranted => exact h.answered ht hgranted
  | crash ht hserve => exact ⟨top, h.crashed ht hserve⟩
  | begin ht =>
    have hstands := h.stands _ (List.mem_of_getElem? ht)
    cases hstands
  | aside r hr =>
    simp only [traffic, Bool.and_eq_true] at hr
    obtain ⟨⟨hknown, hfailures⟩, hlocked⟩ := hr
    obtain rfl := h.still
    exact ⟨top, { h with
      unknown := h.unknown.kept hknown rfl, counts := h.counts.kept hfailures rfl, lock := h.lock.kept hlocked rfl }⟩
  | advance d => exact ⟨top, { h with still := hstill }⟩

end Raced

theorem raced_opened {m : Memory} {first : Nat} (hknown : m.visible? now s.knownGoodKey = none)
    (hlocked : m.visible? now s.lockedKey = none) (hcounts : m.Counts now s.failuresKey first (now.nanos + 1)) :
    Raced rules s now first (.opened m now) first where
  still := rfl
  unknown := Memory.shows_none hknown
  counts := hcounts
  lock := Memory.shows_none hlocked
  locks := by simp [Pool.opened, locksOf]
  stands := by simp [Pool.opened]
  reached := fun hfirst => absurd hfirst (Nat.lt_irrefl _)

theorem raced_run {m : Memory} {first : Nat} (hknown : m.visible? now s.knownGoodKey = none)
    (hlocked : m.visible? now s.lockedKey = none) (hcounts : m.Counts now s.failuresKey first (now.nanos + 1))
    (moves : List (Move Unit Unit)) (hstill : ((Pool.opened m now).run (traffic rules s) moves).now = now) :
    ∃ top, Raced rules s now first ((Pool.opened m now).run (traffic rules s) moves) top := by
  suffices hboth : now.nanos ≤ ((Pool.opened m now).run (traffic rules s) moves).now.nanos ∧
      (((Pool.opened m now).run (traffic rules s) moves).now = now →
        ∃ top, Raced rules s now first ((Pool.opened m now).run (traffic rules s) moves) top) from hboth.2 hstill
  refine Pool.run_induction (P := fun p => now.nanos ≤ p.now.nanos ∧
    (p.now = now → ∃ top, Raced rules s now first p top)) ?_ ?_ moves
  · rintro p p' ⟨hsince, ih⟩ hchange
    have hle := hchange.now_le
    refine ⟨Nat.le_trans hsince hle, fun hstill => ?_⟩
    have hsame : p.now.nanos = now.nanos := Nat.le_antisymm (hstill ▸ hle) hsince
    obtain ⟨top, h⟩ := ih (by cases hp : p.now; cases now; simp_all)
    exact h.change hchange hstill
  · exact ⟨Nat.le_refl _, fun _ => ⟨first, raced_opened hknown hlocked hcounts⟩⟩

def lockLeft (s : Subject) (p : Pool Unit Unit Outcome) : Except Crash (Except Failure (Option Duration)) :=
  (p.memory.serve p.now (.ttlRemaining s.lockedKey)).1

def hasReturned (task : Task Unit Unit Outcome) : Bool :=
  match task.rest.result? with
  | some (.ok _) => true
  | _ => false

namespace Raced
variable {first top : Nat} {p : Pool Unit Unit Outcome}

theorem lockLeft_eq (h : Raced rules s now first p top) : lockLeft s p =
    .ok (.ok ((locksOf p.history).getLast?.map fun n => .ofSeconds (rules.policy.lockout n))) := by
  obtain rfl := h.still
  have hserve : lockLeft s p = _ := (Memory.serve_agrees h.lock (rfl : (Store.Request.ttlRemaining s.lockedKey).key? = _)).outcome
  rw [hserve, lockCell]
  cases hlast : (locksOf p.history).getLast? with
  | none => rfl
  | some n =>
    have hpos : 0 < (Duration.ofSeconds (rules.policy.lockout n)).nanos :=
      Nat.mul_pos (Nat.pos_of_ne_zero (h.locks n (List.mem_of_getLast? hlast)).2) (by decide)
    rw [Option.map_some, Cell.serve_ttlRemaining, Instant.advance, if_pos (by dsimp only; omega), Instant.timeLeft]
    simp

/-- Once all calls have returned, the highest count has had its lock written. -/
theorem top_locked (h : Raced rules s now first p top) (hreturned : ∀ task ∈ p.tasks, hasReturned task) (hfirst : first < top)
    (hlock : rules.policy.lockout top ≠ 0) : (top : Int) ∈ locksOf p.history := by
  obtain ⟨⟨op, rest, status⟩, htask, hcount⟩ := h.reached hfirst
  have hresult := hreturned _ htask
  have hstands := h.stands _ htask
  cases hstands with
  | looking | counting | locking n hle hlock => cases hresult
  | recorded n hle hlocked =>
    cases hcount
    exact hlocked hlock
  | failed failure => cases hresult

end Raced

theorem getLast?_of_sorted {l : List Int} {top : Int} (hsorted : l.Pairwise (· ≤ ·)) (hmem : top ∈ l)
    (hle : ∀ n ∈ l, n ≤ top) : l.getLast? = some top := by
  rcases List.eq_nil_or_concat l with rfl | ⟨before, last, rfl⟩
  · cases hmem
  · rw [List.concat_eq_append] at hsorted hmem hle ⊢
    have hbefore : ∀ n ∈ before, n ≤ last := fun n hn => (List.pairwise_append.1 hsorted).2.2 n hn last (by simp)
    have hlast : last ≤ top := hle last (by simp)
    have htop : top ≤ last := by
      rcases List.mem_append.1 hmem with hmem | hmem
      · exact hbefore top hmem
      · exact Int.le_of_eq (List.mem_singleton.1 hmem)
    rw [List.getLast?_concat, Int.le_antisymm hlast htop]

/-- In whatever order the calls are served at one instant, the lock in force is the one that was written last, and none is
longer than the one for the highest count. Once all calls have returned, the lock for the highest count has been written
too, and it is in force if the locks were written in the order of their counts. -/
theorem last_lock_in_force (rules : Rules) (s : Subject) (m : Memory) (now : Instant) (first : Nat)
    (hknown : m.visible? now s.knownGoodKey = none) (hlocked : m.visible? now s.lockedKey = none)
    (hcounts : m.Counts now s.failuresKey first (now.nanos + 1)) (moves : List (Move Unit Unit))
    (hstill : ((Pool.opened m now).run (traffic rules s) moves).now = now) :
    let p := (Pool.opened m now).run (traffic rules s) moves
    lockLeft s p = .ok (.ok ((locksOf p.history).getLast?.map fun n => .ofSeconds (rules.policy.lockout n))) ∧
      ∃ top : Nat, (p.memory.visible? now s.failuresKey).map Store.Entry.value =
          (if top = 0 then none else some (toString (top : Int))) ∧
        (∀ n ∈ locksOf p.history, n ≤ top ∧ rules.policy.lockout n ≤ rules.policy.lockout top) ∧
        ((∀ task ∈ p.tasks, hasReturned task) → first < top → rules.policy.lockout top ≠ 0 →
          (top : Int) ∈ locksOf p.history ∧ ((locksOf p.history).Pairwise (· ≤ ·) →
            lockLeft s p = .ok (.ok (some (.ofSeconds (rules.policy.lockout top)))))) := by
  intro p
  obtain ⟨top, h⟩ : ∃ top, Raced rules s now first p top := raced_run hknown hlocked hcounts moves hstill
  have hleft := h.lockLeft_eq
  refine ⟨hleft, top, h.counts.visible (by omega), ?_, ?_⟩
  · intro n hn
    have hle := (h.locks n hn).1
    exact ⟨hle, rules.policy.lockout_mono hle⟩
  · intro hreturned hfirst hlock
    have hmem := h.top_locked hreturned hfirst hlock
    refine ⟨hmem, fun hsorted => ?_⟩
    rw [hleft, getLast?_of_sorted hsorted hmem fun n hn => (h.locks n hn).1]
    rfl

def strictRules : Rules := { Rules.standard with policy := ⟨0, .ofSeconds 900⟩ }

def attacked : Subject := ⟨"a", "b"⟩

def bothCounted : List (Move Unit Unit) := [.call (), .call (), .store 0, .store 0, .store 1, .store 1]

theorem ordered_locks_in_force :
    let p := (Pool.opened .empty ⟨0⟩).run (traffic strictRules attacked) (bothCounted ++ [.store 0, .store 1])
    Memory.empty.visible? ⟨0⟩ attacked.knownGoodKey = none ∧ Memory.empty.visible? ⟨0⟩ attacked.lockedKey = none ∧
      Memory.empty.Counts ⟨0⟩ attacked.failuresKey 0 1 ∧ p.now = ⟨0⟩ ∧ (∀ task ∈ p.tasks, hasReturned task) ∧
      locksOf p.history = [1, 2] ∧ lockLeft attacked p = .ok (.ok (some (.ofSeconds 15))) := by
  intro p
  have hcounts : Memory.empty.Counts ⟨0⟩ attacked.failuresKey 0 1 := ⟨none, Memory.shows_none rfl, Cell.counts_none _⟩
  have hlocks : locksOf p.history = [1, 2] := by decide +kernel
  have hleft := (last_lock_in_force strictRules attacked .empty ⟨0⟩ 0 rfl rfl hcounts
    (bothCounted ++ [.store 0, .store 1]) rfl).1
  refine ⟨rfl, rfl, hcounts, rfl, by decide +kernel, hlocks, hleft.trans ?_⟩
  show Except.ok (Except.ok ((locksOf p.history).getLast?.map _)) = _
  rw [hlocks]
  rfl

def secondsFound : Except Crash (Except Failure (Option Duration)) → Nat
  | .ok (.ok (some d)) => d.seconds
  | _ => 0

/-- The second failure locks for fifteen seconds, and then the first one for five. -/
theorem weaker_lock_overtakes :
    ¬ ∀ (rules : Rules) (s : Subject) (m : Memory) (now : Instant) (first : Nat) (moves : List (Move Unit Unit)),
      m.visible? now s.knownGoodKey = none → m.visible? now s.lockedKey = none →
      m.Counts now s.failuresKey first (now.nanos + 1) →
      let p := (Pool.opened m now).run (traffic rules s) moves
      p.now = now → (∀ task ∈ p.tasks, hasReturned task) →
      ∀ top : Nat, first < top → (p.memory.visible? now s.failuresKey).map Store.Entry.value = some (toString (top : Int)) →
        lockLeft s p = .ok (.ok (if rules.policy.lockout top = 0 then none else some (.ofSeconds (rules.policy.lockout top)))) := by
  intro hclaim
  have hleft := hclaim strictRules attacked .empty ⟨0⟩ 0 (bothCounted ++ [.store 1, .store 0]) rfl rfl
    ⟨none, Memory.shows_none rfl, Cell.counts_none _⟩ rfl (by decide +kernel) 2 (by decide) (by decide +kernel)
  have hseconds := congrArg secondsFound hleft
  revert hseconds
  decide +kernel

end Coordination.SignIn
