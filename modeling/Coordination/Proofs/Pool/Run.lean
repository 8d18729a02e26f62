import Coordination.Bounds
import Coordination.Proofs.Pool.Path
import Coordination.Store.Memory

/-! # Pools

Any number of programs run side by side over one memory. One move answers one question of one program, lets work begin
or end, calls another program, serves somebody else's request or moves the clock on, so that a list of moves is an
interleaving at the granularity of single store calls. A move that cannot be made does nothing. The history keeps what
happened to the programs, oldest first.
-/
namespace Coordination
open Store (Crash Memory)

inductive Happening (ω : Type) where
  | answered (q : Ask) (a : q.Answer ω)
  /-- The work that it asked for has begun. -/
  | began
  /-- It ended in a crash on a request. -/
  | crashed (r : Store.Request) (c : Crash)

/-- One line of a history: the program by its number and call, the store's time, and what the program came to if this
was its last answer. -/
structure Event (ι ω α : Type) where
  task : Nat
  op : ι
  time : Instant
  what : Happening ω
  result : Option α

inductive Status where
  | waiting
  | working
  | crashed
deriving DecidableEq, Repr

structure Task (ι ω α : Type) where
  op : ι
  rest : Program ω α
  status : Status

/-- What goes on in a pool: the programs that calls stand for, the calls that can be made after a history, what work
can come to, and the requests that others make besides. -/
structure Traffic (ι ω α : Type) where
  program : ι → Program ω α
  admits : List (Event ι ω α) → ι → Bool
  works : ω → Bool
  aside : Store.Request → Bool

structure Pool (ι ω α : Type) where
  memory : Memory
  now : Instant
  tasks : List (Task ι ω α)
  history : List (Event ι ω α)

inductive Move (ι ω : Type) where
  | call (op : ι)
  | token (task : Nat) (t : String)
  | clock (task : Nat) (ms : Int)
  | store (task : Nat)
  | beginWork (task : Nat)
  | endWork (task : Nat) (w : ω)
  | aside (r : Store.Request)
  | advance (d : Duration)

variable {ι ω α : Type}

/-- Every call can be made at any time, work comes to anything, and nobody else sends a request. -/
def Traffic.free (program : ι → Program ω α) : Traffic ι ω α := ⟨program, fun _ _ => true, fun _ => true, fun _ => false⟩

def Event.token? (e : Event ι ω α) : Option String :=
  match e.what with
  | .answered .token t => some t
  | _ => none

def tokens (history : List (Event ι ω α)) : List String := history.filterMap Event.token?

def clockBounds : Bounds := .signed 64

namespace Pool

def opened (m : Memory) (now : Instant) : Pool ι ω α := ⟨m, now, [], []⟩

def note (p : Pool ι ω α) (i : Nat) (op : ι) (rest : Program ω α) (status : Status) (what : Happening ω)
    (result : Option α) : Pool ι ω α :=
  { p with tasks := p.tasks.set i ⟨op, rest, status⟩, history := p.history ++ [⟨i, op, p.now, what, result⟩] }

def answer (p : Pool ι ω α) (i : Nat) (op : ι) (q : Ask) (a : q.Answer ω) (next : q.Answer ω → Program ω α) :
    Pool ι ω α :=
  p.note i op (next a) .waiting (.answered q a) (next a).result?

def step (s : Traffic ι ω α) (p : Pool ι ω α) : Move ι ω → Pool ι ω α
  | .call op =>
    if s.admits p.history op then { p with tasks := p.tasks ++ [⟨op, s.program op, .waiting⟩] } else p
  | .token i t =>
    match p.tasks[i]? with
    | some ⟨op, .ask .token next, .waiting⟩ => if t ∈ tokens p.history then p else p.answer i op .token t next
    | _ => p
  | .clock i ms =>
    match p.tasks[i]? with
    | some ⟨op, .ask .clock next, .waiting⟩ => if clockBounds.contains ms then p.answer i op .clock ms next else p
    | _ => p
  | .store i =>
    match p.tasks[i]? with
    | some ⟨op, .ask (.store r) next, .waiting⟩ =>
      match p.memory.serve p.now r with
      | (.ok reply, m) => { p with memory := m }.answer i op (.store r) reply next
      | (.error c, m) => { p with memory := m }.note i op (.ask (.store r) next) .crashed (.crashed r c) none
    | _ => p
  | .beginWork i =>
    match p.tasks[i]? with
    | some ⟨op, .ask .work next, .waiting⟩ => p.note i op (.ask .work next) .working .began none
    | _ => p
  | .endWork i w =>
    match p.tasks[i]? with
    | some ⟨op, .ask .work next, .working⟩ => if s.works w then p.answer i op .work w next else p
    | _ => p
  | .aside r => if s.aside r then { p with memory := (p.memory.serve p.now r).2 } else p
  | .advance d => { p with now := p.now.advance d }

def run (s : Traffic ι ω α) (p : Pool ι ω α) (moves : List (Move ι ω)) : Pool ι ω α := moves.foldl (step s) p

theorem run_append (s : Traffic ι ω α) (p : Pool ι ω α) (moves more : List (Move ι ω)) :
    p.run s (moves ++ more) = (p.run s moves).run s more :=
  List.foldl_append

def IsWorking (p : Pool ι ω α) (i : Nat) : Prop := ∃ task, p.tasks[i]? = some task ∧ task.status = .working

/-- How an answer is come by, and the memory after it. -/
def Granted (s : Traffic ι ω α) (p : Pool ι ω α) : (q : Ask) → Status → q.Answer ω → Memory → Prop
  | .token, status, t, m => status = .waiting ∧ t ∉ tokens p.history ∧ m = p.memory
  | .clock, status, ms, m => status = .waiting ∧ clockBounds.contains ms = true ∧ m = p.memory
  | .store r, status, reply, m => status = .waiting ∧ p.memory.serve p.now r = (.ok reply, m)
  | .work, status, w, m => status = .working ∧ s.works w = true ∧ m = p.memory

/-- All that a move can do. -/
inductive Change (s : Traffic ι ω α) (p : Pool ι ω α) : Pool ι ω α → Prop
  | none : Change s p p
  | call (op : ι) (h : s.admits p.history op = true) :
    Change s p { p with tasks := p.tasks ++ [⟨op, s.program op, .waiting⟩] }
  | answer {i : Nat} {op : ι} {q : Ask} {next : q.Answer ω → Program ω α} {status : Status} {a : q.Answer ω}
    {m : Memory} (ht : p.tasks[i]? = some ⟨op, .ask q next, status⟩) (h : p.Granted s q status a m) :
    Change s p ({ p with memory := m }.answer i op q a next)
  | crash {i : Nat} {op : ι} {r : Store.Request} {next : (Ask.store r).Answer ω → Program ω α} {c : Crash} {m : Memory}
    (ht : p.tasks[i]? = some ⟨op, .ask (.store r) next, .waiting⟩) (h : p.memory.serve p.now r = (.error c, m)) :
    Change s p ({ p with memory := m }.note i op (.ask (.store r) next) .crashed (.crashed r c) none)
  | begin {i : Nat} {op : ι} {next : ω → Program ω α} (ht : p.tasks[i]? = some ⟨op, .ask .work next, .waiting⟩) :
    Change s p (p.note i op (.ask .work next) .working .began none)
  | aside (r : Store.Request) (h : s.aside r = true) : Change s p { p with memory := (p.memory.serve p.now r).2 }
  | advance (d : Duration) : Change s p { p with now := p.now.advance d }

theorem step_change (s : Traffic ι ω α) (p : Pool ι ω α) (move : Move ι ω) : Change s p (p.step s move) := by
  cases move with
  | call op =>
    simp only [step]
    split
    · next h => exact .call op h
    · exact .none
  | token i t =>
    simp only [step]
    split
    · next ht =>
      split
      · exact .none
      · next h => exact .answer ht ⟨rfl, h, rfl⟩
    · exact .none
  | clock i ms =>
    simp only [step]
    split
    · next ht =>
      split
      · next h => exact .answer ht ⟨rfl, h, rfl⟩
      · exact .none
    · exact .none
  | store i =>
    simp only [step]
    split
    · next ht =>
      split
      · next h => exact .answer ht ⟨rfl, h⟩
      · next h => exact .crash ht h
    · exact .none
  | beginWork i =>
    simp only [step]
    split
    · next ht => exact .begin ht
    · exact .none
  | endWork i w =>
    simp only [step]
    split
    · next ht =>
      split
      · next h => exact .answer ht ⟨rfl, h, rfl⟩
      · exact .none
    · exact .none
  | aside r =>
    simp only [step]
    split
    · next h => exact .aside r h
    · exact .none
  | advance d => exact .advance d

theorem length_step_store {s : Traffic ι ω α} {p : Pool ι ω α} {i : Nat} {op : ι} {r : Store.Request}
    {next : (Ask.store r).Answer ω → Program ω α} (ht : p.tasks[i]? = some ⟨op, .ask (.store r) next, .waiting⟩) :
    (p.step s (.store i)).history.length = p.history.length + 1 := by
  simp only [step, ht]
  split <;> exact List.length_append

theorem Change.now_le {s : Traffic ι ω α} {p p' : Pool ι ω α} (h : Change s p p') : p.now.nanos ≤ p'.now.nanos := by
  cases h with
  | advance d => exact Nat.le_add_right ..
  | _ => exact Nat.le_refl _

theorem Change.history_append {s : Traffic ι ω α} {p p' : Pool ι ω α} (h : Change s p p') :
    ∃ more, p'.history = p.history ++ more := by
  cases h with
  | answer | crash | begin => exact ⟨_, rfl⟩
  | _ => exact ⟨[], (List.append_nil _).symm⟩

theorem Change.history_subset {s : Traffic ι ω α} {p p' : Pool ι ω α} (h : Change s p p') : p.history ⊆ p'.history := by
  obtain ⟨more, hmore⟩ := h.history_append
  rw [hmore]
  exact List.subset_append_left ..

theorem Change.length_tasks_le {s : Traffic ι ω α} {p p' : Pool ι ω α} (h : Change s p p') :
    p.tasks.length ≤ p'.tasks.length := by
  cases h with
  | call op h => exact (List.length_append ▸ Nat.le_add_right ..)
  | answer | crash | begin => exact Nat.le_of_eq List.length_set.symm
  | _ => exact Nat.le_refl _

/-- What holds at first and survives every change holds after every run. -/
theorem run_induction {s : Traffic ι ω α} {P : Pool ι ω α → Prop} {p : Pool ι ω α}
    (hstep : ∀ {p p'}, P p → Change s p p' → P p') (h : P p) (moves : List (Move ι ω)) :
    P (p.run s moves) := by
  induction moves generalizing p with
  | nil => exact h
  | cons move rest ih => exact ih (hstep h (step_change s p move))

theorem getElem?_note {p : Pool ι ω α} {i : Nat} {task : Task ι ω α} (ht : p.tasks[i]? = some task)
    {op : ι} {rest : Program ω α} {status : Status} {what : Happening ω} {result : Option α} (j : Nat) :
    (p.note i op rest status what result).tasks[j]? = if i = j then some ⟨op, rest, status⟩ else p.tasks[j]? := by
  have hlt := (List.getElem?_eq_some_iff.1 ht).1
  by_cases hij : i = j
  · subst hij
    rw [note, List.getElem?_set, if_pos rfl, if_pos hlt, if_pos rfl]
  · rw [note, List.getElem?_set, if_neg hij, if_neg hij]

theorem getElem?_concat_eq_some {tasks : List (Task ι ω α)} {new task : Task ι ω α} {i : Nat}
    (h : (tasks ++ [new])[i]? = some task) : tasks[i]? = some task ∨ i = tasks.length ∧ task = new := by
  by_cases hlt : i < tasks.length
  · rw [List.getElem?_append_left hlt] at h
    exact .inl h
  · rw [List.getElem?_append_right (Nat.not_lt.1 hlt), List.getElem?_singleton] at h
    split at h
    · cases h
      exact .inr ⟨by omega, rfl⟩
    · cases h

/-- A program stands where it stood, has just been called, or goes on with an answer that was granted. -/
theorem Change.task_cases {s : Traffic ι ω α} {p p' : Pool ι ω α} (h : Change s p p') {i : Nat} {task : Task ι ω α}
    (ht : p'.tasks[i]? = some task) :
    (∃ status, p.tasks[i]? = some { task with status }) ∨ task.rest = s.program task.op ∨
      ∃ q next a status m, p.tasks[i]? = some ⟨task.op, .ask q next, status⟩ ∧ p.Granted s q status a m ∧
        p'.history = p.history ++ [⟨i, task.op, p.now, .answered q a, (next a).result?⟩] ∧ task.rest = next a := by
  cases h with
  | none => exact .inl ⟨_, ht⟩
  | aside | advance => exact .inl ⟨_, ht⟩
  | call op h =>
    rcases getElem?_concat_eq_some ht with ht | ⟨_, rfl⟩
    · exact .inl ⟨_, ht⟩
    · exact .inr (.inl rfl)
  | @answer j op q next status a m hj hgranted =>
    rw [Pool.answer, getElem?_note (p := { p with memory := m }) hj] at ht
    split at ht
    · next hij =>
      subst hij
      cases ht
      exact .inr (.inr ⟨q, next, a, status, m, hj, hgranted, rfl, rfl⟩)
    · exact .inl ⟨_, ht⟩
  | @crash j op r next c m hj _ =>
    rw [getElem?_note (p := { p with memory := m }) hj] at ht
    split at ht
    · next hij =>
      subst hij
      cases ht
      exact .inl ⟨_, hj⟩
    · exact .inl ⟨_, ht⟩
  | begin hj =>
    rw [getElem?_note hj] at ht
    split at ht
    · next hij =>
      subst hij
      cases ht
      exact .inl ⟨_, hj⟩
    · exact .inl ⟨_, ht⟩

/-- This holds of every program and its call. -/
def AllStand (Q : ι → Program ω α → Prop) (p : Pool ι ω α) : Prop :=
  ∀ (i : Nat) (task : Task ι ω α), p.tasks[i]? = some task → Q task.op task.rest

theorem allStand_opened {Q : ι → Program ω α → Prop} (m : Memory) (now : Instant) : (opened m now).AllStand Q := by
  intro i task ht
  simp [opened] at ht

/-- What holds of every program when it is called, and after an answer that was granted, goes on to hold. -/
theorem Change.allStand {s : Traffic ι ω α} {p p' : Pool ι ω α} (h : Change s p p') {Q : ι → Program ω α → Prop}
    (hp : p.AllStand Q) (hcalled : ∀ op, Q op (s.program op))
    (hnext : ∀ {i op q} {next : q.Answer ω → Program ω α} {status m} (a : q.Answer ω), p.Granted s q status a m →
      p'.history = p.history ++ [⟨i, op, p.now, .answered q a, (next a).result?⟩] → Q op (.ask q next) → Q op (next a)) :
    p'.AllStand Q := by
  intro i task ht
  rcases h.task_cases ht with ⟨status, hstood⟩ | hnew | ⟨q, next, a, status, m, hstood, hgranted, hhistory, hrest⟩
  · exact hp i { task with status } hstood
  · exact hnew ▸ hcalled task.op
  · exact hrest ▸ hnext a hgranted hhistory (hp i _ hstood)

theorem Change.answer_of_result {s : Traffic ι ω α} {p p' : Pool ι ω α} (h : Change s p p') {e : Event ι ω α}
    (hnew : p'.history = p.history ++ [e]) {x : α} (hresult : e.result = some x) :
    ∃ q next a status, p.tasks[e.task]? = some ⟨e.op, .ask q next, status⟩ ∧ p.Granted s q status a p'.memory ∧
      next a = .done x ∧ e.time = p.now := by
  cases h with
  | none => simp at hnew
  | call | aside | advance => simp at hnew
  | @answer j op q next status a m hj hgranted =>
    obtain rfl := List.singleton_inj.1 (List.append_cancel_left hnew)
    refine ⟨q, next, a, status, hj, hgranted, ?_, rfl⟩
    cases hnext : next a with
    | done y =>
      rw [hnext] at hresult
      exact congrArg Program.done (Option.some.inj hresult)
    | ask q' next' =>
      rw [hnext] at hresult
      cases hresult
  | crash | begin =>
    obtain rfl := List.singleton_inj.1 (List.append_cancel_left hnew)
    cases hresult

theorem Change.crash_cases {s : Traffic ι ω α} {p p' : Pool ι ω α} (h : Change s p p') {e : Event ι ω α}
    (he : e ∈ p'.history) {r : Store.Request} {c : Crash} (hwhat : e.what = .crashed r c) :
    e ∈ p.history ∨ ∃ next, p.tasks[e.task]? = some ⟨e.op, .ask (.store r) next, .waiting⟩ ∧ e.time = p.now ∧
      (p.memory.serve p.now r).1 = .error c := by
  cases h with
  | none | call | aside | advance => exact .inl he
  | answer | begin =>
    rcases List.mem_append.1 he with he | he
    · exact .inl he
    · obtain rfl := List.mem_singleton.1 he
      cases hwhat
  | crash hi hcrash =>
    rcases List.mem_append.1 he with he | he
    · exact .inl he
    · obtain rfl := List.mem_singleton.1 he
      cases hwhat
      exact .inr ⟨_, hi, rfl, congrArg Prod.fst hcrash⟩

theorem asks_of_working (s : Traffic ι ω α) (m : Memory) (now : Instant) (moves : List (Move ι ω)) {i : Nat}
    {task : Task ι ω α} (ht : ((opened m now).run s moves).tasks[i]? = some task) (hstatus : task.status = .working) :
    ∃ next, task.rest = .ask .work next := by
  revert i task
  refine run_induction (P := fun p => ∀ {i : Nat} {task : Task ι ω α}, p.tasks[i]? = some task →
    task.status = .working → ∃ next, task.rest = .ask .work next) ?_ (by simp [opened]) moves
  intro p p' hp hchange j task ht hstatus
  cases hchange with
  | none => exact hp ht hstatus
  | aside r h => exact hp ht hstatus
  | advance d => exact hp ht hstatus
  | call op h =>
    rcases getElem?_concat_eq_some ht with ht | ⟨_, rfl⟩
    · exact hp ht hstatus
    · cases hstatus
  | @answer i op q next status a m hi _ =>
    rw [answer, getElem?_note (p := { p with memory := m }) hi] at ht
    split at ht
    · cases ht
      cases hstatus
    · exact hp ht hstatus
  | @crash i op r next c m hi _ =>
    rw [getElem?_note (p := { p with memory := m }) hi] at ht
    split at ht
    · cases ht
      cases hstatus
    · exact hp ht hstatus
  | begin hi =>
    rw [getElem?_note hi] at ht
    split at ht
    · cases ht
      exact ⟨_, rfl⟩
    · exact hp ht hstatus

end Pool

end Coordination
