import Mathlib.Data.List.Basic
import Coordination.Proofs.Pool.History
import Coordination.Proofs.SignIn.Backing
import Coordination.Proofs.SignIn.Lockout
import Coordination.Proofs.SignIn.Requests

/-! # No failure is lost

Failures of one subject are recorded side by side, next to calls that only read, their single calls to the store in any
order. As long as the streak lasts that the first of them has begun, each takes the next number and keeps it to its end. So
the numbers that have been given out are those from one on, each of them once, and the count is the last of them.
-/
namespace Coordination.SignIn
open Store (Memory countRequest)

namespace Call

def isFailure (rules : Rules) (s : Subject) : Call → Bool
  | .recordFailure rules' s' => rules' = rules && s' = s
  | _ => false

theorem eq_of_isFailure {rules : Rules} {s : Subject} {call : Call} (h : call.isFailure rules s = true) :
    call = .recordFailure rules s := by
  cases call with
  | recordFailure rules' s' =>
    simp only [isFailure, Bool.and_eq_true, decide_eq_true_eq] at h
    rw [h.1, h.2]
  | _ => cases h

end Call

abbrev Told := Except Failure Result

abbrev VisitEvent := Coordination.Event Call Unit Told

/-- Any number of failures of one subject, next to calls that only read and requests that leave its failures and its mark
alone. -/
def visits (rules : Rules) (s : Subject) : Traffic Call Unit Told where
  program call := call.action.run
  admits _ call := call.isFailure rules s || call.onlyReads
  works _ := true
  aside r := r.leaves s.knownGoodKey && r.leaves s.failuresKey

def counted? (e : VisitEvent) : Option (Nat × Int) :=
  match e.what with
  | .answered (.store (.increment ..)) (.ok n) => some (e.task, n)
  | _ => none

def isIncrement (e : VisitEvent) : Bool :=
  match e.what.request? with
  | some (.increment ..) => true
  | _ => false

def countedIn (history : List (VisitEvent)) : List (Nat × Int) := history.filterMap counted?

/-- The number that a failure of the subject has told. -/
def returned? (rules : Rules) (s : Subject) (task : Task Call Unit Told) : Option Int :=
  if task.op.isFailure rules s then
    match task.rest.result? with
    | some (.ok (.failed (.recorded n _))) => some n
    | _ => none
  else none

def failuresAmong (rules : Rules) (s : Subject) (tasks : List (Task Call Unit Told)) : Nat :=
  tasks.countP fun task => task.op.isFailure rules s

def upTo (n : Nat) : List Int := (List.range n).map fun k => ((k + 1 : Nat) : Int)

theorem upTo_succ (n : Nat) : upTo (n + 1) = upTo n ++ [((n + 1 : Nat) : Int)] := by
  simp [upTo, List.range_succ]

theorem length_upTo (n : Nat) : (upTo n).length = n := by simp [upTo]

structure Rules.Fits (rules : Rules) (now : Instant) : Prop where
  streak : rules.failureTtl.millis ≠ 0
  streakEnds : (now.add? rules.failureTtl).isSome
  lockEnds : ∀ n : Int, (now.add? (.ofSeconds (rules.policy.lockout n))).isSome

theorem Policy.lockout_le (policy : Policy) (n : Int) : policy.lockout n ≤ 900 := by
  have hsteps : ∀ i < 6, escalation.getD i 0 ≤ 900 := by decide
  have hlength : escalation.length - 1 = 5 := rfl
  by_cases hfree : n ≤ policy.freeAttempts
  · rw [lockout, delayFor, if_pos hfree]
    exact Nat.zero_le _
  · rw [lockout, delayFor_of_lt policy (Int.not_le.1 hfree), secondsCeil_le_iff, Duration.nanos_shorter, hlength]
    have hstep := Duration.ofSeconds_mono (hsteps (min (n - policy.freeAttempts - 1).toNat 5) (by omega))
    have hpositive : 0 < Duration.nanosPerMilli := by decide
    omega

theorem Rules.Fits.of_quarter {rules : Rules} {now : Instant} (hstreak : rules.failureTtl.millis ≠ 0)
    (hends : (now.add? rules.failureTtl).isSome) (hquarter : (now.add? (.ofSeconds 900)).isSome) : rules.Fits now where
  streak := hstreak
  streakEnds := hends
  lockEnds := by
    intro n
    have hle := Duration.ofSeconds_mono (rules.policy.lockout_le n)
    unfold Instant.add? at hquarter ⊢
    split at hquarter
    · next hfits =>
      rw [if_pos (Nat.lt_of_le_of_lt (Nat.div_le_div_right (Nat.add_le_add_left hle _)) hfits)]
      rfl
    · cases hquarter

def telling (p : Program Unit (Except Failure FailureOutcome)) : Program Unit Told :=
  p.bind fun outcome => .done (outcome.map .failed)

section Places
variable (rules : Rules) (s : Subject)

inductive Failing (n : Nat) : Program Unit Told → Prop
  | looking : Failing n (.ask (.store (.get s.knownGoodKey)) fun reply => telling (afterKnown rules s reply))
  | counting : Failing n
    (.ask (.store (countRequest s.failuresKey rules.failureTtl)) fun reply => telling (afterCount rules s reply))
  | locking (k : Int) (hlock : rules.policy.lockout k ≠ 0) : Failing n
    (.ask (.store (lockRequest s (rules.policy.lockout k))) fun reply => telling (afterLock rules k reply))
  | recorded (k : Int) : Failing n (.done (.ok (.failed (recorded rules k))))
  | full (h : Memory.counterBounds.contains ((n + 1 : Nat) : Int) = false) :
    Failing n (.done (.error (.internal (.overflow s.failuresKey))))

def numberOf? : Program Unit Told → Option Int
  | .ask (.store (.set ..)) next =>
    match next (.ok ()) with
    | .done (.ok (.failed (.recorded n _))) => some n
    | _ => none
  | .done (.ok (.failed (.recorded n _))) => some n
  | _ => none

def held? (task : Task Call Unit Told) : Option Int :=
  if task.op.isFailure rules s then numberOf? task.rest else none

/-- A failure stands on its course, and any other call will only read. -/
def Placed (n : Nat) (task : Task Call Unit Told) : Prop :=
  if task.op.isFailure rules s then task.status = .waiting ∧ Failing rules s n task.rest
  else task.rest.Sends fun r => r.writes = false

end Places

variable {rules : Rules} {s : Subject}

theorem run_failing (rules : Rules) (s : Subject) : ((Call.recordFailure rules s).action : Action Unit Result).run =
    .ask (.store (.get s.knownGoodKey)) fun reply => telling (afterKnown rules s reply) := by
  have hrun : ((Call.recordFailure rules s).action : Action Unit Result).run = telling (rules.recordFailure s).run := by
    rw [Call.action, Action.run_bind, telling]
    congr
    funext outcome
    cases outcome <;> rfl
  rw [hrun, run_recordFailure]
  rfl

theorem held?_of_reads {task : Task Call Unit Told} (h : task.op.isFailure rules s = false) : held? rules s task = none := by
  rw [held?, h]
  rfl

theorem Placed.reads {n : Nat} {task : Task Call Unit Told} (h : Placed rules s n task)
    (hop : task.op.isFailure rules s = false) : task.rest.Sends fun r => r.writes = false := by
  rwa [Placed, hop] at h

theorem Placed.failing {n : Nat} {task : Task Call Unit Told} (h : Placed rules s n task)
    (hop : task.op.isFailure rules s = true) : task.status = .waiting ∧ Failing rules s n task.rest := by
  rwa [Placed, hop] at h

theorem Placed.of_reads {n : Nat} {task : Task Call Unit Told} (hop : task.op.isFailure rules s = false)
    (h : task.rest.Sends fun r => r.writes = false) : Placed rules s n task := by
  rwa [Placed, hop]

theorem Placed.of_failing {n : Nat} {task : Task Call Unit Told} (hop : task.op.isFailure rules s = true)
    (hstatus : task.status = .waiting) (h : Failing rules s n task.rest) : Placed rules s n task := by
  rw [Placed, hop]
  exact ⟨hstatus, h⟩

theorem Failing.mono {n n' : Nat} {rest : Program Unit Told} (h : Failing rules s n rest) (hle : n ≤ n') :
    Failing rules s n' rest := by
  cases h with
  | looking => exact .looking
  | counting => exact .counting
  | locking k hlock => exact .locking k hlock
  | recorded k => exact .recorded k
  | full h =>
    refine .full (Bool.eq_false_iff.2 fun hfits => ?_)
    have hbelow := Store.counterBounds_of_le (m := ((n + 1 : Nat) : Int)) (by omega) (by omega) hfits
    rw [h] at hbelow
    cases hbelow

theorem Placed.mono {n n' : Nat} {task : Task Call Unit Told} (h : Placed rules s n task) (hle : n ≤ n') :
    Placed rules s n' task := by
  cases hop : task.op.isFailure rules s with
  | true =>
    obtain ⟨hstatus, hfailing⟩ := h.failing hop
    exact .of_failing hop hstatus (hfailing.mono hle)
  | false => exact .of_reads hop (h.reads hop)

section Lists
variable {α β : Type} {f : α → Option β} {l : List α} {i : Nat} {old new : α}

theorem filterMap_set_of_eq (ht : l[i]? = some old) (h : f new = f old) : (l.set i new).filterMap f = l.filterMap f := by
  induction l generalizing i with
  | nil => cases ht
  | cons a rest ih =>
    cases i with
    | zero =>
      cases ht
      simp only [List.set_cons_zero, List.filterMap_cons, h]
    | succ i => simp only [List.set_cons_succ, List.filterMap_cons, ih ht]

theorem filterMap_set_perm (ht : l[i]? = some old) (hold : f old = none) {b : β} (hnew : f new = some b) :
    ((l.set i new).filterMap f).Perm (l.filterMap f ++ [b]) := by
  induction l generalizing i with
  | nil => cases ht
  | cons a rest ih =>
    cases i with
    | zero =>
      cases ht
      simp only [List.set_cons_zero, List.filterMap_cons, hold, hnew]
      exact (List.perm_append_singleton b _).symm
    | succ i =>
      simp only [List.set_cons_succ, List.filterMap_cons]
      cases f a with
      | none => exact ih ht
      | some c => exact (ih ht).cons c

end Lists

/-- The count is `n`, the numbers up to it were given out in their order, and each of them is held by the call that got it
and by no other. -/
structure Census (rules : Rules) (s : Subject) (horizon : Nat) (p : Pool Call Unit Told) (n : Nat) : Prop where
  unknown : p.memory.Shows p.now s.knownGoodKey none
  counts : p.memory.Counts p.now s.failuresKey n horizon
  idle : n = 0 → ∀ e ∈ p.history, isIncrement e = false
  begun : 0 < n → horizon ≤ p.now.nanos + rules.failureTtl.nanos
  listed : (countedIn p.history).map Prod.snd = upTo n
  holds : ∀ c ∈ countedIn p.history, ∃ task, p.tasks[c.1]? = some task ∧ held? rules s task = some c.2
  held : (p.tasks.filterMap (held? rules s)).Perm (upTo n)
  placed : ∀ task ∈ p.tasks, Placed rules s n task

theorem countedIn_concat (history : List (VisitEvent)) (e : VisitEvent) :
    countedIn (history ++ [e]) = countedIn history ++ (counted? e).toList := by
  unfold countedIn
  rw [List.filterMap_append]
  cases h : counted? e <;> simp [h]

theorem counted?_of_not_increment {e : VisitEvent} (h : isIncrement e = false) : counted? e = none := by
  unfold counted?
  split
  · next hwhat =>
    rw [isIncrement, hwhat] at h
    cases h
  · rfl

theorem isIncrement_of_reads {e : VisitEvent} {r : Store.Request} (hr : r.writes = false)
    (h : e.what.request? = some r) : isIncrement e = false := by
  rw [isIncrement, h]
  cases r with
  | increment => cases hr
  | _ => rfl

namespace Census
variable {horizon n : Nat} {p : Pool Call Unit Told} {m' : Memory} {i : Nat} {task : Task Call Unit Told}
  {rest : Program Unit Told} {status : Status} {what : Happening Unit} {result : Option Told}

theorem holds_set (h : Census rules s horizon p n) (ht : p.tasks[i]? = some task) {new : Task Call Unit Told}
    (hkept : ∀ k, held? rules s task = some k → held? rules s new = some k) {c : Nat × Int}
    (hc : c ∈ countedIn p.history) : ∃ task, (p.tasks.set i new)[c.1]? = some task ∧ held? rules s task = some c.2 := by
  obtain ⟨holder, hholder, hheld⟩ := h.holds c hc
  by_cases hi : i = c.1
  · subst hi
    cases ht.symm.trans hholder
    refine ⟨new, ?_, hkept _ hheld⟩
    rw [List.getElem?_set_self (List.getElem?_eq_some_iff.1 ht).1]
  · exact ⟨holder, (List.getElem?_set_ne hi).trans hholder, hheld⟩

theorem placed_set (h : Census rules s horizon p n) {n' : Nat} (hle : n ≤ n') {new : Task Call Unit Told}
    (hnew : Placed rules s n' new) : ∀ task ∈ p.tasks.set i new, Placed rules s n' task := by
  intro other hother
  rcases List.mem_or_eq_of_mem_set hother with hmem | rfl
  · exact (h.placed other hmem).mono hle
  · exact hnew

theorem note (h : Census rules s horizon p n) (ht : p.tasks[i]? = some task)
    (hheld : held? rules s ⟨task.op, rest, status⟩ = held? rules s task)
    (hcounted : counted? ⟨i, task.op, p.now, what, result⟩ = none)
    (hidle : n = 0 → isIncrement ⟨i, task.op, p.now, what, result⟩ = false)
    (hplaced : Placed rules s n ⟨task.op, rest, status⟩)
    (hunknown : m'.Shows p.now s.knownGoodKey none) (hcounts : m'.Counts p.now s.failuresKey n horizon) :
    Census rules s horizon (({ p with memory := m' } : Pool Call Unit Told).note i task.op rest status what result) n := by
  have hsame : countedIn (p.history ++ [⟨i, task.op, p.now, what, result⟩]) = countedIn p.history := by
    rw [countedIn_concat, hcounted]
    exact List.append_nil _
  refine ⟨hunknown, hcounts, ?_, h.begun, ?_, ?_, ?_, h.placed_set (Nat.le_refl n) hplaced⟩
  · intro hzero e he
    rcases List.mem_append.1 he with he | he
    · exact h.idle hzero e he
    · obtain rfl := List.mem_singleton.1 he
      exact hidle hzero
  · simp only [Pool.note, hsame]
    exact h.listed
  · simp only [Pool.note, hsame]
    exact fun c hc => h.holds_set ht (fun k hk => hheld.trans hk) hc
  · simp only [Pool.note, filterMap_set_of_eq ht hheld]
    exact h.held

theorem note_reading (h : Census rules s horizon p n) (hop : task.op.isFailure rules s = false)
    (ht : p.tasks[i]? = some task) (hreads : rest.Sends fun r => r.writes = false)
    (hidle : isIncrement ⟨i, task.op, p.now, what, result⟩ = false) (hunknown : m'.Shows p.now s.knownGoodKey none)
    (hcounts : m'.Counts p.now s.failuresKey n horizon) :
    Census rules s horizon (({ p with memory := m' } : Pool Call Unit Told).note i task.op rest status what result) n := by
  have hnew : held? rules s ⟨task.op, rest, status⟩ = none := held?_of_reads hop
  exact h.note ht (hnew.trans (held?_of_reads hop).symm) (counted?_of_not_increment hidle) (fun _ => hidle)
    (.of_reads hop hreads) hunknown hcounts

/-- A call gets the next number. -/
theorem note_next (h : Census rules s horizon p n) (ht : p.tasks[i]? = some task) (hnone : held? rules s task = none)
    (hheld : held? rules s ⟨task.op, rest, status⟩ = some ((n + 1 : Nat) : Int))
    (hcounted : counted? ⟨i, task.op, p.now, what, result⟩ = some (i, ((n + 1 : Nat) : Int)))
    (hplaced : Placed rules s (n + 1) ⟨task.op, rest, status⟩) (hunknown : m'.Shows p.now s.knownGoodKey none)
    (hcounts : m'.Counts p.now s.failuresKey (n + 1) horizon)
    (hbegun : horizon ≤ p.now.nanos + rules.failureTtl.nanos) :
    Census rules s horizon (({ p with memory := m' } : Pool Call Unit Told).note i task.op rest status what result)
      (n + 1) := by
  have hnext : countedIn (p.history ++ [⟨i, task.op, p.now, what, result⟩]) =
      countedIn p.history ++ [(i, ((n + 1 : Nat) : Int))] := by
    rw [countedIn_concat, hcounted]
    rfl
  refine ⟨hunknown, hcounts, nofun, fun _ => hbegun, ?_, ?_, ?_, h.placed_set (Nat.le_succ n) hplaced⟩
  · simp only [Pool.note, hnext, List.map_append, h.listed, upTo_succ, List.map_singleton]
  · simp only [Pool.note, hnext]
    intro c hc
    rcases List.mem_append.1 hc with hc | hc
    · refine h.holds_set ht (fun k hk => ?_) hc
      rw [hnone] at hk
      cases hk
    · obtain rfl := List.mem_singleton.1 hc
      exact ⟨_, List.getElem?_set_self (List.getElem?_eq_some_iff.1 ht).1, hheld⟩
  · simp only [Pool.note]
    rw [upTo_succ]
    exact (filterMap_set_perm ht hnone hheld).trans (h.held.append_right _)

section Requests
variable {op : Call}

/-- A request to count is answered the next number unless the count is full, and it leaves the mark alone. -/
theorem serve_count (h : Census rules s horizon p n) (hfits : rules.Fits p.now)
    (hhorizon : p.now.nanos < horizon) (hbegun : horizon ≤ p.now.nanos + rules.failureTtl.nanos)
    {o : Except Store.Crash (Except Failure Int)}
    (hserve : p.memory.serve p.now (countRequest s.failuresKey rules.failureTtl) = (o, m')) :
    m'.Shows p.now s.knownGoodKey none ∧
      (o = .ok (.ok ((n + 1 : Nat) : Int)) ∧ m'.Counts p.now s.failuresKey (n + 1) horizon ∨
        o = .ok (.error (.internal (.overflow s.failuresKey))) ∧
          Memory.counterBounds.contains ((n + 1 : Nat) : Int) = false ∧ m'.Counts p.now s.failuresKey n horizon) := by
  have hleaves : (countRequest s.failuresKey rules.failureTtl).leaves s.knownGoodKey = true :=
    Store.Request.leaves_of_ne fun heq => failuresKey_ne_knownGoodKey s s (Option.some.inj heq)
  have hlater : rules.failureTtl.millis ≠ 0 → (horizon : Int) ≤ p.now.nanos + rules.failureTtl.nanos := by omega
  have hcount := h.counts.serve (by omega) hlater
  rw [hserve] at hcount
  refine ⟨h.unknown.kept hleaves hserve, ?_⟩
  rcases hcount with hcount | ⟨hcause, hsame⟩
  · exact .inl hcount
  · cases hcause with
    | short hshort => exact absurd hshort hfits.streak
    | endless hends =>
      have hstreak := hfits.streakEnds
      rw [hends] at hstreak
      cases hstreak
    | overflow hfull => exact .inr ⟨rfl, hfull, hsame⟩

theorem serve_lock (h : Census rules s horizon p n) (hfits : rules.Fits p.now) {k : Int}
    (hlock : rules.policy.lockout k ≠ 0) {o : Except Store.Crash (Except Failure Unit)}
    (hserve : p.memory.serve p.now (lockRequest s (rules.policy.lockout k)) = (o, m')) :
    o = .ok (.ok ()) ∧ m'.Shows p.now s.knownGoodKey none ∧ m'.Counts p.now s.failuresKey n horizon := by
  have hleaves : ∀ key, s.lockedKey ≠ key → (lockRequest s (rules.policy.lockout k)).leaves key = true :=
    fun key hne => Store.Request.leaves_of_ne fun heq => hne (Option.some.inj heq)
  refine ⟨?_, h.unknown.kept (hleaves _ (lockedKey_ne_knownGoodKey s s)) hserve,
    h.counts.kept (hleaves _ (lockedKey_ne_failuresKey s s)) hserve⟩
  obtain ⟨m'', _, ⟨_, hends, _⟩ | ⟨hset, _⟩⟩ :=
    p.memory.set_cases p.now s.lockedKey (toString (rules.policy.lockout k)) (millis_ofSeconds_ne hlock)
  · have hlocks := hfits.lockEnds k
    rw [hends] at hlocks
    cases hlocks
  · exact (Prod.mk.inj (hserve.symm.trans hset)).1

theorem looked (h : Census rules s horizon p n) (hop : op.isFailure rules s = true)
    (ht : p.tasks[i]? = some ⟨op, .ask (.store (.get s.knownGoodKey)) fun reply => telling (afterKnown rules s reply), status⟩)
    {reply : Except Failure (Option String)} (hserve : p.memory.serve p.now (.get s.knownGoodKey) = (.ok reply, m')) :
    Census rules s horizon ({ p with memory := m' }.answer i op (.store (.get s.knownGoodKey)) reply
      fun reply => telling (afterKnown rules s reply)) n := by
  have hleaves : ∀ key, (Store.Request.get s.knownGoodKey).leaves key = true := fun _ => Store.Request.leaves_of_reads rfl
  obtain rfl : reply = .ok none := by
    have hget := p.memory.serve_get p.now s.knownGoodKey
    rw [hserve, h.unknown p.now (Nat.le_refl _)] at hget
    exact Except.ok.inj hget
  refine h.note ht ?_ rfl (fun _ => rfl) (.of_failing hop rfl .counting) (h.unknown.kept (hleaves _) hserve)
    (h.counts.kept (hleaves _) hserve)
  simp only [held?, hop]
  rfl

theorem counted (h : Census rules s horizon p n) (hfits : rules.Fits p.now) (hhorizon : p.now.nanos < horizon)
    (hbegun : horizon ≤ p.now.nanos + rules.failureTtl.nanos) (hop : op.isFailure rules s = true)
    (ht : p.tasks[i]? = some ⟨op, .ask (.store (countRequest s.failuresKey rules.failureTtl))
      fun reply => telling (afterCount rules s reply), status⟩) {reply : Except Failure Int}
    (hserve : p.memory.serve p.now (countRequest s.failuresKey rules.failureTtl) = (.ok reply, m')) :
    ∃ n', Census rules s horizon ({ p with memory := m' }.answer i op
      (.store (countRequest s.failuresKey rules.failureTtl)) reply fun reply => telling (afterCount rules s reply)) n' := by
  have hnone : held? rules s ⟨op, .ask (.store (countRequest s.failuresKey rules.failureTtl))
      fun reply => telling (afterCount rules s reply), status⟩ = none := by
    simp only [held?, hop]
    rfl
  obtain ⟨hunknown, ⟨hreply, hcounts⟩ | ⟨hreply, hfull, hcounts⟩⟩ := h.serve_count hfits hhorizon hbegun hserve
  · obtain rfl : reply = .ok ((n + 1 : Nat) : Int) := Except.ok.inj hreply
    refine ⟨n + 1, ?_⟩
    rw [Pool.answer, afterCount]
    by_cases hlock : rules.policy.lockout ((n + 1 : Nat) : Int) = 0
    · rw [if_pos hlock]
      refine h.note_next ht hnone ?_ rfl (.of_failing hop rfl (.recorded _)) hunknown hcounts hbegun
      simp only [held?, hop]
      rfl
    · rw [if_neg hlock]
      refine h.note_next ht hnone ?_ rfl (.of_failing hop rfl (.locking _ hlock)) hunknown hcounts hbegun
      simp only [held?, hop]
      rfl
  · obtain rfl : reply = .error (.internal (.overflow s.failuresKey)) := Except.ok.inj hreply
    refine ⟨n, h.note ht ?_ rfl ?_ (.of_failing hop rfl (.full hfull)) hunknown hcounts⟩
    · rw [hnone]
      simp only [held?, hop]
      rfl
    · rintro rfl
      cases hfull

theorem locked (h : Census rules s horizon p n) (hfits : rules.Fits p.now) (hop : op.isFailure rules s = true) {k : Int}
    (hlock : rules.policy.lockout k ≠ 0)
    (ht : p.tasks[i]? = some ⟨op, .ask (.store (lockRequest s (rules.policy.lockout k)))
      fun reply => telling (afterLock rules k reply), status⟩) {reply : Except Failure Unit}
    (hserve : p.memory.serve p.now (lockRequest s (rules.policy.lockout k)) = (.ok reply, m')) :
    Census rules s horizon ({ p with memory := m' }.answer i op (.store (lockRequest s (rules.policy.lockout k))) reply
      fun reply => telling (afterLock rules k reply)) n := by
  obtain ⟨hreply, hunknown, hcounts⟩ := h.serve_lock hfits hlock hserve
  obtain rfl : reply = .ok () := Except.ok.inj hreply
  refine h.note ht ?_ rfl (fun _ => rfl) (.of_failing hop rfl (.recorded k)) hunknown hcounts
  simp only [held?, hop]
  rfl

theorem read (h : Census rules s horizon p n) (hop : op.isFailure rules s = false) {q : Ask}
    {next : q.Answer Unit → Program Unit Told} (ht : p.tasks[i]? = some ⟨op, .ask q next, status⟩) {a : q.Answer Unit}
    (hgranted : p.Granted (visits rules s) q status a m') :
    Census rules s horizon ({ p with memory := m' }.answer i op q a next) n := by
  have hreads := (h.placed _ (List.mem_of_getElem? ht)).reads hop
  cases q with
  | store r =>
    have hleaves : ∀ key, r.leaves key = true := fun _ => Store.Request.leaves_of_reads hreads.1
    exact h.note_reading hop ht (hreads.next a) (isIncrement_of_reads hreads.1 rfl) (h.unknown.kept (hleaves _) hgranted.2)
      (h.counts.kept (hleaves _) hgranted.2)
  | token | clock | work =>
    obtain ⟨_, _, rfl⟩ := hgranted
    exact h.note_reading hop ht (hreads.next a) rfl h.unknown h.counts

end Requests

theorem answered (h : Census rules s horizon p n) (hfits : rules.Fits p.now) (hhorizon : p.now.nanos < horizon) {op : Call}
    {q : Ask} {next : q.Answer Unit → Program Unit Told} (ht : p.tasks[i]? = some ⟨op, .ask q next, status⟩)
    {a : q.Answer Unit} (hgranted : p.Granted (visits rules s) q status a m')
    (hbegun : isIncrement ⟨i, op, p.now, .answered q a, (next a).result?⟩ = true →
      horizon ≤ p.now.nanos + rules.failureTtl.nanos) :
    ∃ n', Census rules s horizon ({ p with memory := m' }.answer i op q a next) n' := by
  cases hop : op.isFailure rules s with
  | false => exact ⟨n, h.read hop ht hgranted⟩
  | true =>
    obtain ⟨_, hfailing⟩ := (h.placed _ (List.mem_of_getElem? ht)).failing hop
    generalize hrest : Program.ask q next = rest at hfailing
    cases hfailing with
    | looking =>
      cases hrest
      exact ⟨n, h.looked hop ht hgranted.2⟩
    | counting =>
      cases hrest
      exact h.counted hfits hhorizon (hbegun rfl) hop ht hgranted.2
    | locking k hlock =>
      cases hrest
      exact ⟨n, h.locked hfits hop hlock ht hgranted.2⟩
    | recorded k => cases hrest
    | full hfull => cases hrest

theorem crashed (h : Census rules s horizon p n) (hfits : rules.Fits p.now) (hhorizon : p.now.nanos < horizon) {op : Call}
    {r : Store.Request} {next : (Ask.store r).Answer Unit → Program Unit Told}
    (ht : p.tasks[i]? = some ⟨op, .ask (.store r) next, .waiting⟩) {c : Store.Crash}
    (hserve : p.memory.serve p.now r = (.error c, m'))
    (hbegun : isIncrement ⟨i, op, p.now, .crashed r c, none⟩ = true → horizon ≤ p.now.nanos + rules.failureTtl.nanos) :
    Census rules s horizon
      (({ p with memory := m' } : Pool Call Unit Told).note i op (.ask (.store r) next) .crashed (.crashed r c) none) n := by
  cases hop : op.isFailure rules s with
  | false =>
    have hreads := (h.placed _ (List.mem_of_getElem? ht)).reads hop
    have hleaves : ∀ key, r.leaves key = true := fun _ => Store.Request.leaves_of_reads hreads.1
    exact h.note_reading hop ht hreads (isIncrement_of_reads hreads.1 rfl) (h.unknown.kept (hleaves _) hserve)
      (h.counts.kept (hleaves _) hserve)
  | true =>
    obtain ⟨_, hfailing⟩ := (h.placed _ (List.mem_of_getElem? ht)).failing hop
    generalize hrest : Program.ask (.store r) next = rest at hfailing
    cases hfailing with
    | looking =>
      cases hrest
      have hget := p.memory.serve_get p.now s.knownGoodKey
      rw [hserve] at hget
      cases hget
    | counting =>
      cases hrest
      obtain ⟨_, ⟨hreply, _⟩ | ⟨hreply, _⟩⟩ := h.serve_count hfits hhorizon (hbegun rfl) hserve
      · cases hreply
      · cases hreply
    | locking k hlock =>
      cases hrest
      obtain ⟨hreply, _⟩ := h.serve_lock hfits hlock hserve
      cases hreply
    | recorded k => cases hrest
    | full hfull => cases hrest

theorem called (h : Census rules s horizon p n) {op : Call} (hop : (visits rules s).admits p.history op = true) :
    Census rules s horizon { p with tasks := p.tasks ++ [⟨op, (visits rules s).program op, .waiting⟩] } n := by
  have hnew : held? rules s ⟨op, (visits rules s).program op, .waiting⟩ = none ∧
      Placed rules s n ⟨op, (visits rules s).program op, .waiting⟩ := by
    cases hfails : op.isFailure rules s with
    | true =>
      have hrun : (visits rules s).program op = _ := Call.eq_of_isFailure hfails ▸ run_failing rules s
      rw [hrun]
      refine ⟨?_, .of_failing hfails rfl .looking⟩
      simp only [held?, hfails]
      rfl
    | false =>
      have hreads : op.onlyReads = true := (Bool.or_eq_true_iff.1 hop).resolve_left (Bool.eq_false_iff.1 hfails)
      exact ⟨held?_of_reads hfails, .of_reads hfails ((Call.looks hreads).sends.mono fun _ => Looked.reads)⟩
  refine { h with holds := ?_, held := ?_, placed := ?_ }
  · intro c hc
    obtain ⟨task, htask, hheld⟩ := h.holds c hc
    exact ⟨task, (List.getElem?_append_left (List.getElem?_eq_some_iff.1 htask).1).trans htask, hheld⟩
  · simp only [List.filterMap_append, List.filterMap_cons, hnew.1, List.filterMap_nil, List.append_nil]
    exact h.held
  · intro task htask
    rcases List.mem_append.1 htask with hmem | hmem
    · exact h.placed task hmem
    · obtain rfl := List.mem_singleton.1 hmem
      exact hnew.2

theorem worked (h : Census rules s horizon p n) {op : Call} {next : Unit → Program Unit Told}
    (ht : p.tasks[i]? = some ⟨op, .ask .work next, .waiting⟩) :
    Census rules s horizon (p.note i op (.ask .work next) .working .began none) n := by
  have hplaced := h.placed _ (List.mem_of_getElem? ht)
  cases hop : op.isFailure rules s with
  | true => cases (hplaced.failing hop).2
  | false => exact h.note_reading hop ht (hplaced.reads hop) rfl h.unknown h.counts

theorem passed_by (h : Census rules s horizon p n) {r : Store.Request} (hr : (visits rules s).aside r = true) :
    Census rules s horizon { p with memory := (p.memory.serve p.now r).2 } n := by
  obtain ⟨hknown, hfailures⟩ := Bool.and_eq_true_iff.1 hr
  exact { h with unknown := h.unknown.kept hknown rfl, counts := h.counts.kept hfailures rfl }

theorem later (h : Census rules s horizon p n) (d : Duration) :
    Census rules s horizon { p with now := p.now.advance d } n := by
  have hle : p.now.nanos ≤ (p.now.advance d).nanos := Nat.le_add_right ..
  refine { h with unknown := h.unknown.later hle, counts := h.counts.later hle, begun := ?_ }
  intro hpos
  have hbegun := h.begun hpos
  dsimp only
  omega

/-- Within the time of the streak every change keeps the census. -/
theorem change (h : Census rules s horizon p n) {p' : Pool Call Unit Told} (hhorizon : p.now.nanos < horizon)
    (hfits : ∀ e ∈ p'.history, rules.Fits e.time)
    (hfirst : ∀ e, p'.history.find? isIncrement = some e → horizon ≤ e.time.nanos + rules.failureTtl.nanos)
    (hchange : Pool.Change (visits rules s) p p') : ∃ n', Census rules s horizon p' n' := by
  -- The first request to count is the one that the streak begins with.
  have hbegun : ∀ e, p'.history = p.history ++ [e] → e.time = p.now → isIncrement e = true →
      horizon ≤ p.now.nanos + rules.failureTtl.nanos := by
    intro e he htime hincrement
    by_cases hzero : n = 0
    · have hnone : p.history.find? isIncrement = none := by
        rw [List.find?_eq_none]
        intro e' he'
        rw [h.idle hzero e' he']
        exact Bool.false_ne_true
      rw [← htime]
      apply hfirst
      rw [he, List.find?_append, hnone]
      simp [hincrement]
    · exact h.begun (Nat.pos_of_ne_zero hzero)
  cases hchange with
  | none => exact ⟨n, h⟩
  | call op hop => exact ⟨n, h.called hop⟩
  | aside r hr => exact ⟨n, h.passed_by hr⟩
  | advance d => exact ⟨n, h.later d⟩
  | answer ht hgranted =>
    have hnow := hfits _ (List.mem_append_right _ List.mem_cons_self)
    exact h.answered hnow hhorizon ht hgranted (hbegun _ rfl rfl)
  | crash ht hserve =>
    have hnow := hfits _ (List.mem_append_right _ List.mem_cons_self)
    exact ⟨n, h.crashed hnow hhorizon ht hserve (hbegun _ rfl rfl)⟩
  | begin ht => exact ⟨n, h.worked ht⟩

end Census

theorem census_opened (rules : Rules) {m : Memory} {start : Instant} (horizon : Nat)
    (hknown : m.visible? start s.knownGoodKey = none) (hfailures : m.visible? start s.failuresKey = none) :
    Census rules s horizon (.opened m start) 0 where
  unknown := Memory.shows_none hknown
  counts := ⟨none, Memory.shows_none hfailures, Store.Cell.counts_none _⟩
  idle := by simp [Pool.opened]
  begun := nofun
  listed := rfl
  holds := by simp [Pool.opened, countedIn]
  held := List.Perm.refl _
  placed := by simp [Pool.opened]

theorem census_run {m : Memory} {start : Instant} {horizon : Nat} (hknown : m.visible? start s.knownGoodKey = none)
    (hfailures : m.visible? start s.failuresKey = none) (moves : List (Move Call Unit)) :
    let p := (Pool.opened m start).run (visits rules s) moves
    (∀ e ∈ p.history, rules.Fits e.time) →
    (∀ e, p.history.find? isIncrement = some e → horizon ≤ e.time.nanos + rules.failureTtl.nanos) →
    p.now.nanos < horizon → ∃ n, Census rules s horizon p n := by
  refine Pool.run_induction (P := fun p => (∀ e ∈ p.history, rules.Fits e.time) →
    (∀ e, p.history.find? isIncrement = some e → horizon ≤ e.time.nanos + rules.failureTtl.nanos) →
    p.now.nanos < horizon → ∃ n, Census rules s horizon p n) ?_ ?_ moves
  · intro p p' ih hchange hfits hfirst hhorizon
    have hnow := Nat.lt_of_le_of_lt hchange.now_le hhorizon
    obtain ⟨more, hmore⟩ := hchange.history_append
    have hearlier : ∀ e, p.history.find? isIncrement = some e → p'.history.find? isIncrement = some e := by
      intro e he
      rw [hmore, List.find?_append, he, Option.some_or]
    obtain ⟨n, h⟩ := ih (fun e he => hfits e (hchange.history_subset he)) (fun e he => hfirst e (hearlier e he)) hnow
    exact h.change hnow hfits hfirst hchange
  · exact fun _ _ _ => ⟨0, census_opened rules horizon hknown hfailures⟩

namespace Census
variable {horizon n : Nat} {p : Pool Call Unit Told}

theorem le_high (h : Census rules s horizon p n) : (n : Int) ≤ Memory.counterBounds.high := by
  obtain ⟨c, _, ⟨rfl, _⟩ | ⟨_, hbounds, _⟩⟩ := h.counts
  · decide
  · exact (Bounds.contains_iff.1 hbounds).2

theorem ended (h : Census rules s horizon p n) (hends : ∀ i, p.step (visits rules s) (.store i) = p)
    {task : Task Call Unit Told} (hmem : task ∈ p.tasks) (hop : task.op.isFailure rules s = true) :
    (∃ k, task.rest = .done (.ok (.failed (recorded rules k)))) ∨
      (n : Int) = Memory.counterBounds.high ∧ task.rest = .done (.error (.internal (.overflow s.failuresKey))) := by
  obtain ⟨hstatus, hfailing⟩ := (h.placed task hmem).failing hop
  obtain ⟨op, rest, status⟩ := task
  obtain rfl : status = .waiting := hstatus
  obtain ⟨i, ht⟩ := List.mem_iff_getElem?.1 hmem
  have hstill : ∀ {r : Store.Request} {next : (Ask.store r).Answer Unit → Program Unit Told}, rest ≠ .ask (.store r) next := by
    rintro r next rfl
    have hlength := Pool.length_step_store (s := visits rules s) ht
    rw [hends i] at hlength
    omega
  dsimp only at hfailing
  cases hfailing with
  | recorded k => exact .inl ⟨k, rfl⟩
  | full hfull =>
    have hle := h.le_high
    have hzero := Bounds.contains_iff.1 Store.counterBounds_zero
    refine .inr ⟨Int.le_antisymm hle (Int.not_lt.1 fun hlt => ?_), rfl⟩
    rw [Bounds.contains_iff.2 ⟨by omega, by omega⟩] at hfull
    cases hfull
  | looking | counting | locking => exact absurd rfl hstill

theorem held_eq_returned (h : Census rules s horizon p n) (hends : ∀ i, p.step (visits rules s) (.store i) = p)
    {task : Task Call Unit Told} (hmem : task ∈ p.tasks) : held? rules s task = returned? rules s task := by
  cases hop : task.op.isFailure rules s with
  | false => rw [held?_of_reads hop, returned?, hop, if_neg Bool.false_ne_true]
  | true =>
    rw [held?, returned?, hop, if_pos rfl, if_pos rfl]
    rcases h.ended hends hmem hop with ⟨k, hrest⟩ | ⟨_, hrest⟩ <;> rw [hrest] <;> rfl

theorem count_failures (h : Census rules s horizon p n) : failuresAmong rules s p.tasks =
    n + p.tasks.countP fun task => (held? rules s task).isNone && task.op.isFailure rules s := by
  have hheld : p.tasks.countP (fun task => (held? rules s task).isSome && task.op.isFailure rules s) = n := by
    rw [← length_upTo n, ← h.held.length_eq, List.length_filterMap_eq_countP]
    refine List.countP_congr fun task _ => ?_
    cases hop : task.op.isFailure rules s with
    | true => simp
    | false => simp [held?_of_reads hop]
  have hsplit := List.length_eq_countP_add_countP (fun task => (held? rules s task).isSome)
    (l := p.tasks.filter fun task => task.op.isFailure rules s)
  rw [List.countP_filter, List.countP_filter, hheld, ← List.countP_eq_length_filter] at hsplit
  rw [failuresAmong, hsplit]
  congr 1
  exact List.countP_congr fun task _ => by simp

/-- Every failure has been counted, as far as the store can count. -/
theorem count_of_ended (h : Census rules s horizon p n) (hends : ∀ i, p.step (visits rules s) (.store i) = p) :
    (n : Int) = min (failuresAmong rules s p.tasks : Int) Memory.counterBounds.high ∧
      ∀ task ∈ p.tasks, task.op.isFailure rules s = true → held? rules s task = none →
        Memory.counterBounds.high < failuresAmong rules s p.tasks := by
  have hle := h.le_high
  have hcount := h.count_failures
  have hfull : ∀ task ∈ p.tasks, task.op.isFailure rules s = true → held? rules s task = none →
      (n : Int) = Memory.counterBounds.high := by
    intro task hmem hop hnone
    rcases h.ended hends hmem hop with ⟨k, hrest⟩ | ⟨heq, _⟩
    · rw [held?, if_pos hop, hrest] at hnone
      cases hnone
    · exact heq
  constructor
  · by_cases hheld : p.tasks.countP (fun task => (held? rules s task).isNone && task.op.isFailure rules s) = 0
    · omega
    · obtain ⟨task, hmem, htask⟩ := List.countP_pos_iff.1 (Nat.pos_of_ne_zero hheld)
      simp only [Bool.and_eq_true, Option.isNone_iff_eq_none] at htask
      have := hfull task hmem htask.2 htask.1
      omega
  · intro task hmem hop hnone
    have hpos : 0 < p.tasks.countP fun task => (held? rules s task).isNone && task.op.isFailure rules s :=
      List.countP_pos_iff.2 ⟨task, hmem, by simp [hop, hnone]⟩
    have := hfull task hmem hop hnone
    omega

theorem play_failureCount (h : Census rules s horizon p n) (hhorizon : p.now.nanos < horizon) :
    ((Session.opened p.memory p.now).play (failureCount s).run).1 = .ok (.ok n) := by
  have hplay : ∀ t?, p.memory.Shows p.now s.failuresKey (Tally.cell t?) →
      ((Session.opened p.memory p.now).play (failureCount s).run).1 = .ok (.ok (Tally.countAt p.now t?)) :=
    fun t? hshows => SignIn.play_failureCount (x := .opened p.memory p.now) hshows
  obtain ⟨c, hshows, ⟨rfl, rfl⟩ | ⟨_, hbounds, t, ht, rfl⟩⟩ := h.counts
  · exact hplay none hshows
  · have hruns : Tally.RunsAt p.now ⟨n, t, hbounds⟩ := show p.now.nanos < t.nanos by omega
    rw [hplay (some ⟨n, t, hbounds⟩) hshows, Tally.countAt_of_runs hruns]

end Census

/-- Whatever the order in which the calls are served, no failure is lost: in a run that goes no further and stays within the
streak of the first request to count, every failure has been recorded with the delay of its number, unless the store has
counted as many as it can. The numbers that were told are those from one to the number of failures, they were given out in
the order of the increments, and the last of them is the count. -/
theorem every_failure_counts (rules : Rules) (s : Subject) (m : Memory) (start : Instant)
    (hknown : m.visible? start s.knownGoodKey = none) (hfailures : m.visible? start s.failuresKey = none)
    (moves : List (Move Call Unit)) :
    let p := (Pool.opened m start).run (visits rules s) moves
    (∀ e ∈ p.history, rules.Fits e.time) →
    (∀ e, p.history.find? isIncrement = some e → p.now.nanos < e.time.nanos + rules.failureTtl.nanos) →
    (∀ i, p.step (visits rules s) (.store i) = p) →
    ∃ n : Nat, (n : Int) = min (failuresAmong rules s p.tasks : Int) Memory.counterBounds.high ∧
      (∀ task ∈ p.tasks, task.op.isFailure rules s = true →
        (∃ k, task.rest.result? = some (.ok (.failed (.recorded k (rules.policy.delayFor k))))) ∨
          Memory.counterBounds.high < failuresAmong rules s p.tasks ∧
            task.rest.result? = some (.error (.internal (.overflow s.failuresKey)))) ∧
      (p.tasks.filterMap (returned? rules s)).Perm (upTo n) ∧
      (countedIn p.history).map Prod.snd = upTo n ∧
      (∀ c ∈ countedIn p.history, ∃ task, p.tasks[c.1]? = some task ∧ returned? rules s task = some c.2) ∧
      ((Session.opened p.memory p.now).play (failureCount s).run).1 = .ok (.ok n) := by
  intro p hfits hfirst hends
  obtain ⟨n, h⟩ : ∃ n, Census rules s (p.now.nanos + 1) p n := census_run hknown hfailures moves hfits hfirst (Nat.lt_succ_self _)
  obtain ⟨hcount, hover⟩ := h.count_of_ended hends
  have hsame : ∀ task ∈ p.tasks, held? rules s task = returned? rules s task := fun _ => h.held_eq_returned hends
  refine ⟨n, hcount, ?_, ?_, h.listed, ?_, h.play_failureCount (Nat.lt_succ_self _)⟩
  · intro task hmem hop
    rcases h.ended hends hmem hop with ⟨k, hrest⟩ | ⟨hfull, hrest⟩
    · exact .inl ⟨k, hrest ▸ rfl⟩
    · refine .inr ⟨hover task hmem hop ?_, hrest ▸ rfl⟩
      rw [held?, if_pos hop, hrest]
      rfl
  · rw [← List.filterMap_congr hsame]
    exact h.held
  · intro c hc
    obtain ⟨task, htask, hheld⟩ := h.holds c hc
    exact ⟨task, htask, (hsame task (List.mem_of_getElem? htask)) ▸ hheld⟩

def lenientRules : Rules := ⟨⟨1, .ofSeconds 900⟩, .ofSeconds 3600, .ofSeconds 3600⟩

/-- Two failures, a check and a look at the count. The second failure is counted before the first, which then locks. -/
def mixedVisits : List (Move Call Unit) := [
  .call (.recordFailure lenientRules someone), .call (.recordFailure lenientRules someone), .call (.check someone),
  .call (.failureCount someone), .store 0, .store 1, .store 2, .store 1, .store 3, .advance (.ofSeconds 1), .store 0,
  .store 2, .store 0]

theorem mixed_visits_count :
    let p := (Pool.opened .empty ⟨0⟩).run (visits lenientRules someone) mixedVisits
    Memory.empty.visible? ⟨0⟩ someone.knownGoodKey = none ∧ Memory.empty.visible? ⟨0⟩ someone.failuresKey = none ∧
      (∀ e ∈ p.history, lenientRules.Fits e.time) ∧
      (∀ e, p.history.find? isIncrement = some e → p.now.nanos < e.time.nanos + lenientRules.failureTtl.nanos) ∧
      (∀ i, p.step (visits lenientRules someone) (.store i) = p) ∧ failuresAmong lenientRules someone p.tasks = 2 ∧
      (p.tasks.filterMap (returned? lenientRules someone)).Perm [1, 2] ∧ countedIn p.history = [(1, 1), (0, 2)] ∧
      ((Session.opened p.memory p.now).play (failureCount someone).run).1 = .ok (.ok 2) := by
  intro p
  have htimes : ∀ e ∈ p.history, e.time = ⟨0⟩ ∨ e.time = ⟨1000000000⟩ := by decide +kernel
  have hfits : ∀ e ∈ p.history, lenientRules.Fits e.time := by
    intro e he
    rcases htimes e he with htime | htime <;> rw [htime] <;> exact .of_quarter (by decide) (by decide) (by decide)
  have hnow : p.now = ⟨1000000000⟩ := by decide +kernel
  have hfirst : ∀ e, p.history.find? isIncrement = some e →
      p.now.nanos < e.time.nanos + lenientRules.failureTtl.nanos := by
    intro e _
    have hlong : lenientRules.failureTtl.nanos = 3600000000000 := by decide
    rw [hnow, hlong]
    dsimp only
    omega
  have hends : ∀ i, p.step (visits lenientRules someone) (.store i) = p
    | 0 | 1 | 2 | 3 => rfl
    | i + 4 => rfl
  have hfailures : failuresAmong lenientRules someone p.tasks = 2 := by decide +kernel
  obtain ⟨n, hn, _, hperm, _, _, hcount⟩ :=
    every_failure_counts lenientRules someone .empty ⟨0⟩ rfl rfl mixedVisits hfits hfirst hends
  have hboth : (n : Int) = 2 := by
    rw [hn, show failuresAmong lenientRules someone _ = 2 from hfailures]
    decide
  obtain rfl : n = 2 := by omega
  exact ⟨rfl, rfl, hfits, hfirst, hends, hfailures, hperm, by decide +kernel, hcount⟩

end Coordination.SignIn
