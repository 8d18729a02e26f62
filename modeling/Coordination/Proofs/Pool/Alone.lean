import Coordination.Proofs.Pool.Alike
import Mathlib.Data.List.Forall2

/-! # What is left when others are gone

The calls of a pool are split into a part and the others. Where the part has keys of its own, which it asks for alone and the
others never ask for, the others make no difference to it: the run that is left when their moves are taken out brings every
call of the part to the same place, up to tokens, which may be handed out under other names.
-/
namespace Coordination
open Store (Cell Crash Memory)

variable {ι ω α : Type}

/-- Some calls of a pool, with the calls and tokens that stand for theirs when they are on their own. -/
structure Part (ι : Type) where
  mine : ι → Bool
  call : ι → ι
  rename : String → String

namespace Part

abbrev rank (part : Part ι) (tasks : List (Task ι ω α)) (i : Nat) : Nat :=
  (tasks.take i).countP fun task => part.mine task.op

def rank? (part : Part ι) (tasks : List (Task ι ω α)) (i : Nat) : Option Nat :=
  (tasks[i]?.filter fun task => part.mine task.op).map fun _ => part.rank tasks i

/-- What is left of a move in a pool when only the part is there. A token that somebody holds already is not drawn. -/
def move? (part : Part ι) (p : Pool ι ω α) : Move ι ω → Option (Move ι ω)
  | .call op => if part.mine op then some (.call (part.call op)) else none
  | .token i t => if t ∈ tokens p.history then none else (part.rank? p.tasks i).map fun j => .token j (part.rename t)
  | .clock i ms => (part.rank? p.tasks i).map fun j => .clock j ms
  | .store i => (part.rank? p.tasks i).map .store
  | .beginWork i => (part.rank? p.tasks i).map .beginWork
  | .endWork i w => (part.rank? p.tasks i).map fun j => .endWork j w
  | .aside _ => none
  | .advance d => some (.advance d)

/-- The moves of a run from a pool on that are left when only the part is there. -/
def alone (part : Part ι) (s : Traffic ι ω α) : Pool ι ω α → List (Move ι ω) → List (Move ι ω)
  | _, [] => []
  | p, move :: rest => (part.move? p move).toList ++ part.alone s (p.step s move) rest

end Part

section Lists
variable {β : Type} {P : β → Bool} {l : List β} {i : Nat} {x y : β}

theorem eq_take_append_of_getElem? (h : l[i]? = some x) : l = l.take i ++ x :: l.drop (i + 1) := by
  obtain ⟨hlt, rfl⟩ := List.getElem?_eq_some_iff.1 h
  rw [List.getElem_cons_drop, List.take_append_drop]

theorem set_eq_of_getElem? (h : l[i]? = some x) (y : β) : l.set i y = l.take i ++ y :: l.drop (i + 1) := by
  obtain ⟨hlt, _⟩ := List.getElem?_eq_some_iff.1 h
  exact List.set_eq_take_append_cons_drop .. |>.trans (if_pos hlt)

theorem getElem?_filter_countP (h : l[i]? = some x) (hx : P x = true) :
    (l.filter P)[(l.take i).countP P]? = some x := by
  have hsplit := congrArg (List.filter P) (eq_take_append_of_getElem? h)
  rw [List.filter_append, List.filter_cons_of_pos hx] at hsplit
  rw [hsplit, List.countP_eq_length_filter, List.getElem?_append_right (Nat.le_refl _), Nat.sub_self]
  rfl

theorem filter_set_of_pos (h : l[i]? = some x) (hx : P x = true) (hy : P y = true) :
    (l.set i y).filter P = (l.filter P).set ((l.take i).countP P) y := by
  have hsplit := congrArg (List.filter P) (eq_take_append_of_getElem? h)
  rw [List.filter_append, List.filter_cons_of_pos hx] at hsplit
  rw [set_eq_of_getElem? h, hsplit, List.filter_append, List.filter_cons_of_pos hy, List.countP_eq_length_filter,
    List.set_append_right _ _ (Nat.le_refl _), Nat.sub_self]
  rfl

theorem filter_set_of_neg (h : l[i]? = some x) (hx : P x = false) (hy : P y = false) :
    (l.set i y).filter P = l.filter P := by
  have hsplit := congrArg (List.filter P) (eq_take_append_of_getElem? h)
  rw [List.filter_append, List.filter_cons_of_neg (by simp [hx])] at hsplit
  rw [set_eq_of_getElem? h, hsplit, List.filter_append, List.filter_cons_of_neg (by simp [hy])]

theorem forall₂_getElem? {γ : Type} {R : β → γ → Prop} {l' : List γ} (h : List.Forall₂ R l l') (hx : l[i]? = some x) :
    ∃ x', l'[i]? = some x' ∧ R x x' := by
  obtain ⟨hlt, rfl⟩ := List.getElem?_eq_some_iff.1 hx
  exact ⟨_, List.getElem?_eq_getElem (h.length_eq ▸ hlt), h.get hlt (h.length_eq ▸ hlt)⟩

theorem forall₂_set {γ : Type} {R : β → γ → Prop} {l' : List γ} {x' y' : γ} (h : List.Forall₂ R l l') (hx : l[i]? = some x)
    (hx' : l'[i]? = some x') (hy : R y y') : List.Forall₂ R (l.set i y) (l'.set i y') := by
  rw [set_eq_of_getElem? hx, set_eq_of_getElem? hx']
  exact List.rel_append (List.forall₂_take i h) (.cons hy (List.forall₂_drop (i + 1) h))

end Lists

theorem Event.token?_eq_some {e : Event ι ω α} {t : String} : e.token? = some t ↔ e.what = .answered .token t := by
  unfold Event.token?
  constructor
  · intro h
    split at h
    · next hwhat =>
      cases h
      exact hwhat
    · cases h
  · intro h
    rw [h]

theorem tokens_concat (history : List (Event ι ω α)) (e : Event ι ω α) :
    tokens (history ++ [e]) = tokens history ++ e.token?.toList := by
  unfold tokens
  rw [List.filterMap_append]
  cases h : e.token? <;> simp [h]

/-- The task of a call on its own has come as far as that of the call for which it stands. -/
structure Task.Twin (part : Part ι) (V : String → String → Prop) (A : α → α → Prop) (task task' : Task ι ω α) : Prop where
  op : task'.op = part.call task.op
  status : task'.status = task.status
  rest : task.rest.Alike part.rename V A task'.rest

/-- The request is for a key of the part if its call is of the part, and for another key if not. -/
def Part.Allows (part : Part ι) (own : String → Prop) (op : ι) (r : Store.Request) : Prop :=
  ∃ key, r.key? = some key ∧ (part.mine op = true ↔ own key)

/-- The part has keys of its own: it asks for these and the others do not; and its calls on their own are alike to those for
which they stand. -/
structure Part.Separate (part : Part ι) (program : ι → Program ω α) (own : String → Prop) (V : String → String → Prop)
    (A : α → α → Prop) : Prop where
  sends : ∀ op, (program op).Sends (part.Allows own op)
  alike : ∀ op, part.mine op = true → (program op).Alike part.rename V A (program (part.call op))
  faithful : Faithful V
  injective : part.rename.Injective

/-- The second pool is what the first one is for the part. -/
structure Pool.Twin (part : Part ι) (own : String → Prop) (V : String → String → Prop) (A : α → α → Prop)
    (p p' : Pool ι ω α) : Prop where
  now : p'.now = p.now
  tasks : List.Forall₂ (Task.Twin part V A) (p.tasks.filter fun task => part.mine task.op) p'.tasks
  sends : ∀ task ∈ p.tasks, task.rest.Sends (part.Allows own task.op)
  cells : ∀ key, own key → ∃ c c' : Cell, p.memory.Shows p.now key c ∧ p'.memory.Shows p.now key c' ∧ c.Alike V c'
  tokens : ∀ t' ∈ tokens p'.history, ∃ t ∈ tokens p.history, t' = part.rename t

namespace Pool.Twin
variable {part : Part ι} {program : ι → Program ω α} {own : String → Prop} {V : String → String → Prop} {A : α → α → Prop}
  {p p' : Pool ι ω α} {i j : Nat} {op op' : ι}

theorem opened (start : Instant) : (Pool.opened .empty start : Pool ι ω α).Twin part own V A (Pool.opened .empty start) where
  now := rfl
  tasks := .nil
  sends := by simp [Pool.opened]
  cells key _ := ⟨none, none, fun _ _ => rfl, fun _ _ => rfl, .none⟩
  tokens := by simp [Pool.opened, Coordination.tokens]

theorem sends_note (h : p.Twin part own V A p') (op : ι) {rest : Program ω α} (hrest : rest.Sends (part.Allows own op))
    (i : Nat) (status : Status) : ∀ other ∈ p.tasks.set i ⟨op, rest, status⟩, other.rest.Sends (part.Allows own other.op) := by
  intro other hmem
  rcases List.mem_or_eq_of_mem_set hmem with hmem | rfl
  · exact h.sends other hmem
  · exact hrest

theorem note_other (h : p.Twin part own V A p') {task : Task ι ω α} (ht : p.tasks[i]? = some task)
    (hother : part.mine task.op = false) {m : Memory} (hm : ∀ key c, own key → p.memory.Shows p.now key c → m.Shows p.now key c)
    {rest : Program ω α} (hrest : rest.Sends (part.Allows own task.op)) {status : Status} {what : Happening ω}
    {result : Option α} :
    (({ p with memory := m } : Pool ι ω α).note i task.op rest status what result).Twin part own V A p' where
  now := h.now
  tasks := by
    rw [note, filter_set_of_neg ht hother (by exact hother)]
    exact h.tasks
  sends := h.sends_note task.op hrest i status
  cells := by
    intro key hkey
    obtain ⟨c, c', hc, hc', halike⟩ := h.cells key hkey
    exact ⟨c, c', hm key c hkey hc, hc', halike⟩
  tokens := by
    intro t' ht'
    obtain ⟨t, ht, rfl⟩ := h.tokens t' ht'
    exact ⟨t, List.filterMap_subset _ (List.subset_append_left ..) ht, rfl⟩

theorem note_mine (h : p.Twin part own V A p') {task task' : Task ι ω α} (ht : p.tasks[i]? = some task)
    (hmine : part.mine task.op = true) (hop : task'.op = part.call task.op)
    (ht' : p'.tasks[part.rank p.tasks i]? = some task') {m m' : Memory}
    (hcells : ∀ key, own key → ∃ c c' : Cell, m.Shows p.now key c ∧ m'.Shows p.now key c' ∧ c.Alike V c')
    {rest rest' : Program ω α} (hrest : rest.Sends (part.Allows own task.op)) (halike : rest.Alike part.rename V A rest')
    {status : Status} {what what' : Happening ω} {result result' : Option α}
    (htoken : ∀ t', what' = .answered .token t' → ∃ t, what = .answered .token t ∧ t' = part.rename t) :
    (({ p with memory := m } : Pool ι ω α).note i task.op rest status what result).Twin part own V A
      (({ p' with memory := m' } : Pool ι ω α).note (part.rank p.tasks i) task'.op rest'
        status what' result') where
  now := h.now
  tasks := by
    simp only [note]
    rw [filter_set_of_pos ht hmine (by exact hmine)]
    exact forall₂_set h.tasks (getElem?_filter_countP ht hmine) ht' ⟨hop, rfl, halike⟩
  sends := h.sends_note task.op hrest i status
  cells := hcells
  tokens := by
    intro t' ht'
    simp only [note, tokens_concat, List.mem_append] at ht' ⊢
    rcases ht' with ht' | ht'
    · obtain ⟨t, ht, rfl⟩ := h.tokens t' ht'
      exact ⟨t, .inl ht, rfl⟩
    · obtain ⟨t, rfl, rfl⟩ := htoken t' (Event.token?_eq_some.1 (Option.mem_toList.1 ht'))
      exact ⟨t, .inr (Option.mem_toList.2 (Event.token?_eq_some.2 rfl)), rfl⟩

end Pool.Twin

def Move.task? : Move ι ω → Option Nat
  | .token i _ | .clock i _ | .store i | .beginWork i | .endWork i _ => some i
  | .call _ | .aside _ | .advance _ => none

/-- A move of a task does nothing or puts the task to a place further on, and the memory is served what the task asked for. -/
theorem Pool.step_task {s : Traffic ι ω α} {p : Pool ι ω α} {move : Move ι ω} {i : Nat} (hi : move.task? = some i) :
    p.step s move = p ∨ ∃ task m rest status what result, p.tasks[i]? = some task ∧
      p.step s move = ({ p with memory := m } : Pool ι ω α).note i task.op rest status what result ∧
      (∀ P, task.rest.Sends P → rest.Sends P) ∧
      (m = p.memory ∨ ∃ r next, task.rest = .ask (.store r) next ∧ m = (p.memory.serve p.now r).2) := by
  cases move with
  | call op => cases hi
  | aside r => cases hi
  | advance d => cases hi
  | token j t =>
    cases hi
    simp only [step]
    split
    · next ht =>
      split
      · exact .inl rfl
      · exact .inr ⟨_, p.memory, _, _, _, _, ht, rfl, fun P h => h.next t, .inl rfl⟩
    · exact .inl rfl
  | clock j ms =>
    cases hi
    simp only [step]
    split
    · next ht =>
      split
      · exact .inr ⟨_, p.memory, _, _, _, _, ht, rfl, fun P h => h.next ms, .inl rfl⟩
      · exact .inl rfl
    · exact .inl rfl
  | store j =>
    cases hi
    simp only [step]
    split
    · next r next ht =>
      split
      · next reply m hserve =>
        exact .inr ⟨_, m, _, _, _, _, ht, rfl, fun P h => h.next reply, .inr ⟨r, next, rfl, by rw [hserve]⟩⟩
      · next c m hserve => exact .inr ⟨_, m, _, _, _, _, ht, rfl, fun P h => h, .inr ⟨r, next, rfl, by rw [hserve]⟩⟩
    · exact .inl rfl
  | beginWork j =>
    cases hi
    simp only [step]
    split
    · next ht => exact .inr ⟨_, p.memory, _, _, _, _, ht, rfl, fun P h => h, .inl rfl⟩
    · exact .inl rfl
  | endWork j w =>
    cases hi
    simp only [step]
    split
    · next ht =>
      split
      · exact .inr ⟨_, p.memory, _, _, _, _, ht, rfl, fun P h => h.next w, .inl rfl⟩
      · exact .inl rfl
    · exact .inl rfl

namespace Pool.Twin
variable {part : Part ι} {program : ι → Program ω α} {own : String → Prop} {V : String → String → Prop} {A : α → α → Prop}
  {p p' : Pool ι ω α} {i : Nat}

theorem step_other (h : p.Twin part own V A p') {s : Traffic ι ω α} {move : Move ι ω} (hi : move.task? = some i)
    (hother : ∀ task, p.tasks[i]? = some task → part.mine task.op = false) : (p.step s move).Twin part own V A p' := by
  rcases step_task (s := s) (p := p) hi with hsame | ⟨task, m, rest, status, what, result, ht, hstep, hsends, hm⟩
  · rw [hsame]
    exact h
  · have htask := h.sends task (List.mem_of_getElem? ht)
    rw [hstep]
    refine h.note_other ht (hother task ht) ?_ (hsends _ htask)
    intro key c hkey hc
    rcases hm with rfl | ⟨r, next, hrest, rfl⟩
    · exact hc
    · rw [hrest] at htask
      obtain ⟨other, hr, hown⟩ := htask.1
      refine Memory.serve_shows_other hc (.inl ?_)
      intro heq
      obtain rfl : other = key := Option.some.inj (hr.symm.trans heq)
      have hmine := hown.2 hkey
      rw [hother task ht] at hmine
      cases hmine

section Mine
variable {op : ι} {rest rest' : Program ω α} {status : Status} (h : p.Twin part own V A p')
  (ht : p.tasks[i]? = some ⟨op, rest, status⟩) (hmine : part.mine op = true)
  (ht' : p'.tasks[part.rank p.tasks i]? = some ⟨part.call op, rest', status⟩)
  (halike : rest.Alike part.rename V A rest')
include h ht hmine ht' halike

theorem step_token (hinjective : part.rename.Injective) {t : String} (hfresh : t ∉ Coordination.tokens p.history) :
    (p.step (.free program) (.token i t)).Twin part own V A (p'.step (.free program)
      (.token (part.rank p.tasks i) (part.rename t))) := by
  have hsends := h.sends _ (List.mem_of_getElem? ht)
  have hfresh' : part.rename t ∉ Coordination.tokens p'.history := by
    intro hmem
    obtain ⟨t', ht', heq⟩ := h.tokens _ hmem
    exact hfresh (hinjective heq ▸ ht')
  cases status with
  | working | crashed => simpa only [step, ht, ht'] using h
  | waiting =>
    cases halike with
    | token halike =>
      simp only [step, ht, ht', if_neg hfresh, if_neg hfresh']
      refine h.note_mine ht hmine rfl ht' h.cells (hsends.next t) (halike t) ?_
      intro t' heq
      cases heq
      exact ⟨t, rfl, rfl⟩
    | _ => simpa only [step, ht, ht'] using h

theorem step_clock (ms : Int) : (p.step (.free program) (.clock i ms)).Twin part own V A (p'.step (.free program)
    (.clock (part.rank p.tasks i) ms)) := by
  have hsends := h.sends _ (List.mem_of_getElem? ht)
  cases status with
  | working | crashed => simpa only [step, ht, ht'] using h
  | waiting =>
    cases halike with
    | clock halike =>
      simp only [step, ht, ht']
      split
      · next hms => exact h.note_mine ht hmine rfl ht' h.cells (hsends.next ms) (halike ms hms) (by simp)
      · exact h
    | _ => simpa only [step, ht, ht'] using h

theorem step_beginWork : (p.step (.free program) (.beginWork i)).Twin part own V A (p'.step (.free program)
    (.beginWork (part.rank p.tasks i))) := by
  have hsends := h.sends _ (List.mem_of_getElem? ht)
  cases status with
  | working | crashed => simpa only [step, ht, ht'] using h
  | waiting =>
    cases halike with
    | work halike =>
      simp only [step, ht, ht']
      exact h.note_mine ht hmine rfl ht' h.cells hsends (.work halike) (by simp)
    | _ => simpa only [step, ht, ht'] using h

theorem step_endWork (w : ω) : (p.step (.free program) (.endWork i w)).Twin part own V A (p'.step (.free program)
    (.endWork (part.rank p.tasks i) w)) := by
  have hsends := h.sends _ (List.mem_of_getElem? ht)
  cases status with
  | waiting | crashed => simpa only [step, ht, ht'] using h
  | working =>
    cases halike with
    | work halike =>
      simp only [step, ht, ht', Traffic.free, if_true]
      exact h.note_mine ht hmine rfl ht' h.cells (hsends.next w) (halike w) (by simp)
    | _ => simpa only [step, ht, ht'] using h

end Mine

theorem cells_serve (h : p.Twin part own V A p') {key : String} {c c' : Cell} (hc : p.memory.Shows p.now key c)
    (hc' : p'.memory.Shows p.now key c') {r r' : Store.Request} (hr : r.key? = some key) (hr' : r'.key? = some key)
    (halike : Cell.Alike V (c.serve p.now r).2 (c'.serve p.now r').2) :
    ∀ other, own other → ∃ d d' : Cell, (p.memory.serve p.now r).2.Shows p.now other d ∧
      (p'.memory.serve p.now r').2.Shows p.now other d' ∧ d.Alike V d' := by
  intro other hother
  by_cases hne : other = key
  · subst hne
    exact ⟨_, _, (Memory.serve_agrees hc hr).shows, (Memory.serve_agrees hc' hr').shows, halike⟩
  · obtain ⟨d, d', hd, hd', hdd⟩ := h.cells other hother
    exact ⟨d, d', (Memory.serve_agrees hc hr).frame.shows hne hd, (Memory.serve_agrees hc' hr').frame.shows hne hd', hdd⟩

theorem step_served (h : p.Twin part own V A p') (hfaithful : Faithful V) {op : ι} {r r' : Store.Request}
    {next : (Ask.store r).Answer ω → Program ω α} {next' : (Ask.store r').Answer ω → Program ω α}
    (ht : p.tasks[i]? = some ⟨op, .ask (.store r) next, .waiting⟩) (hmine : part.mine op = true)
    (ht' : p'.tasks[part.rank p.tasks i]? =
      some ⟨part.call op, .ask (.store r') next', .waiting⟩)
    (halike : (Program.ask (.store r) next).Alike part.rename V A (.ask (.store r') next')) :
    (p.step (.free program) (.store i)).Twin part own V A (p'.step (.free program)
      (.store (part.rank p.tasks i))) := by
  have hsends := h.sends _ (List.mem_of_getElem? ht)
  obtain ⟨key, hr, hown⟩ := hsends.1
  obtain ⟨c, c', hc, hc', hcc⟩ := h.cells key (hown.1 hmine)
  obtain ⟨hr', hserved⟩ := halike.served hfaithful hcc p.now
  rw [hr] at hr'
  have hagrees := Memory.serve_agrees hc hr
  have hagrees' := Memory.serve_agrees hc' hr'
  have hcells := h.cells_serve hc hc' hr hr'
  have hnow : p'.memory.serve p'.now r' = p'.memory.serve p.now r' := by rw [h.now]
  simp only [step, ht, ht', hnow]
  generalize c.serve p.now r = served at hserved hagrees hcells
  generalize c'.serve p.now r' = served' at hserved hagrees' hcells
  generalize p.memory.serve p.now r = found at hagrees hcells ⊢
  generalize p'.memory.serve p.now r' = found' at hagrees' hcells ⊢
  obtain ⟨outcome, m⟩ := found
  obtain ⟨outcome', m'⟩ := found'
  obtain rfl := hagrees.outcome
  obtain rfl := hagrees'.outcome
  cases hserved with
  | crashed hdd =>
    refine h.note_mine ht hmine rfl ht' (hcells hdd) hsends halike ?_
    intro _ heq
    cases heq
  | answered hdd hnext =>
    refine h.note_mine ht hmine rfl ht' (hcells hdd) (hsends.next _) hnext ?_
    intro _ heq
    cases heq

theorem step_store (h : p.Twin part own V A p') (hfaithful : Faithful V) {op : ι} {rest rest' : Program ω α} {status : Status}
    (ht : p.tasks[i]? = some ⟨op, rest, status⟩) (hmine : part.mine op = true)
    (ht' : p'.tasks[part.rank p.tasks i]? = some ⟨part.call op, rest', status⟩)
    (halike : rest.Alike part.rename V A rest') :
    (p.step (.free program) (.store i)).Twin part own V A (p'.step (.free program)
      (.store (part.rank p.tasks i))) := by
  cases status with
  | working | crashed => simpa only [step, ht, ht'] using h
  | waiting =>
    have served {r r' : Store.Request} {next : (Ask.store r).Answer ω → Program ω α}
        {next' : (Ask.store r').Answer ω → Program ω α} (hrest : rest = .ask (.store r) next)
        (hrest' : rest' = .ask (.store r') next') :
        (p.step (.free program) (.store i)).Twin part own V A (p'.step (.free program)
          (.store (part.rank p.tasks i))) := by
      subst hrest hrest'
      exact h.step_served hfaithful ht hmine ht' halike
    cases halike with
    | done _ | token _ | clock _ | work _ => simpa only [step, ht, ht'] using h
    | setIfAbsent _ _ | set _ _ | get _ | compareAndDelete _ _ | same _ _ => exact served rfl rfl

theorem step_call (h : p.Twin part own V A p') (hsep : part.Separate program own V A) (op : ι) :
    (p.step (.free program) (.call op)).Twin part own V A (p'.run (.free program) (part.move? p (.call op)).toList) := by
  have hsends : ∀ task ∈ p.tasks ++ [⟨op, program op, .waiting⟩], task.rest.Sends (part.Allows own task.op) := by
    intro task hmem
    rcases List.mem_append.1 hmem with hmem | hmem
    · exact h.sends task hmem
    · cases List.mem_singleton.1 hmem
      exact hsep.sends op
  cases hmine : part.mine op with
  | true =>
    rw [show part.move? p (.call op) = some (.call (part.call op)) from if_pos hmine]
    refine { h with tasks := ?_, sends := hsends }
    show List.Forall₂ _ (List.filter _ (p.tasks ++ [_])) (p'.tasks ++ [_])
    rw [List.filter_append, List.filter_cons_of_pos (by exact hmine), List.filter_nil]
    exact List.rel_append h.tasks (.cons ⟨rfl, rfl, hsep.alike op hmine⟩ .nil)
  | false =>
    rw [show part.move? p (.call op) = none from if_neg (by simp [hmine])]
    refine { h with tasks := ?_, sends := hsends }
    show List.Forall₂ _ (List.filter _ (p.tasks ++ [_])) p'.tasks
    rw [List.filter_append, List.filter_cons_of_neg (by simp [hmine]), List.filter_nil, List.append_nil]
    exact h.tasks

theorem step_advance (h : p.Twin part own V A p') (d : Duration) :
    (p.step (.free program) (.advance d)).Twin part own V A (p'.step (.free program) (.advance d)) := by
  refine { h with now := congrArg (Instant.advance · d) h.now, cells := ?_ }
  intro key hkey
  obtain ⟨c, c', hc, hc', hcc⟩ := h.cells key hkey
  exact ⟨c, c', hc.later (Nat.le_add_right ..), hc'.later (Nat.le_add_right ..), hcc⟩

/-- The move that is left of a move takes the part on its own as far as the move takes it. -/
theorem step (h : p.Twin part own V A p') (hsep : part.Separate program own V A) (move : Move ι ω) :
    (p.step (.free program) move).Twin part own V A (p'.run (.free program) (part.move? p move).toList) := by
  -- A move of a task is left where the task is of the part, and is then made by the one that stands for it.
  have task_move : ∀ {i : Nat} (f : Nat → Move ι ω), move.task? = some i →
      part.move? p move = (part.rank? p.tasks i).map f →
      (∀ {op rest rest' status}, p.tasks[i]? = some ⟨op, rest, status⟩ → part.mine op = true →
        p'.tasks[part.rank p.tasks i]? = some ⟨part.call op, rest', status⟩ →
        rest.Alike part.rename V A rest' → (p.step (.free program) move).Twin part own V A
          (p'.step (.free program) (f (part.rank p.tasks i)))) →
      (p.step (.free program) move).Twin part own V A (p'.run (.free program) (part.move? p move).toList) := by
    intro i f hi hmove hmine
    rw [hmove]
    cases ht : p.tasks[i]? with
    | none =>
      have hrank : part.rank? p.tasks i = none := by simp only [Part.rank?, ht, Option.filter_none, Option.map_none]
      rw [hrank]
      exact h.step_other hi fun task htask => by cases ht.symm.trans htask
    | some task =>
      cases hpart : part.mine task.op with
      | false =>
        have hrank : part.rank? p.tasks i = none := by simp [Part.rank?, ht, Option.filter, hpart]
        rw [hrank]
        exact h.step_other hi fun other hother => by cases ht.symm.trans hother; exact hpart
      | true =>
        have hrank : part.rank? p.tasks i = some (part.rank p.tasks i) := by
          simp [Part.rank?, ht, Option.filter, hpart]
        rw [hrank]
        obtain ⟨⟨op', rest', status'⟩, ht', hop, hstatus, hrest⟩ :=
          forall₂_getElem? h.tasks (getElem?_filter_countP ht hpart)
        obtain rfl : op' = part.call task.op := hop
        obtain rfl : status' = task.status := hstatus
        exact hmine ht hpart ht' hrest
  cases move with
  | call op => exact h.step_call hsep op
  | aside r => exact h
  | advance d => exact h.step_advance d
  | token i t =>
    by_cases hdrawn : t ∈ Coordination.tokens p.history
    · have hmove : part.move? p (.token i t) = none := if_pos hdrawn
      have hstay : p.step (.free program) (.token i t) = p := by
        simp only [Pool.step, if_pos hdrawn]
        split <;> rfl
      rw [hmove, hstay]
      exact h
    · exact task_move (.token · (part.rename t)) rfl (if_neg hdrawn) fun ht hmine ht' halike =>
        h.step_token ht hmine ht' halike hsep.injective hdrawn
  | clock i ms => exact task_move (.clock · ms) rfl rfl fun ht hmine ht' halike => h.step_clock ht hmine ht' halike ms
  | store i => exact task_move .store rfl rfl fun ht hmine ht' halike => h.step_store hsep.faithful ht hmine ht' halike
  | beginWork i => exact task_move .beginWork rfl rfl fun ht hmine ht' halike => h.step_beginWork ht hmine ht' halike
  | endWork i w => exact task_move (.endWork · w) rfl rfl fun ht hmine ht' halike => h.step_endWork ht hmine ht' halike w

theorem run (h : p.Twin part own V A p') (hsep : part.Separate program own V A) (moves : List (Move ι ω)) :
    (p.run (.free program) moves).Twin part own V A (p'.run (.free program) (part.alone (.free program) p moves)) := by
  induction moves generalizing p p' with
  | nil => exact h
  | cons move rest ih =>
    rw [Part.alone, run_append]
    exact ih (h.step hsep move)

end Pool.Twin

/-- Every call of a part that has keys of its own comes as far with the others as without them. -/
theorem Pool.alone_twin {part : Part ι} {program : ι → Program ω α} {own : String → Prop} {V : String → String → Prop}
    {A : α → α → Prop} (hsep : part.Separate program own V A) (start : Instant) (moves : List (Move ι ω)) :
    List.Forall₂ (Task.Twin part V A)
      (((opened .empty start).run (.free program) moves).tasks.filter fun task => part.mine task.op)
      ((opened .empty start).run (.free program) (part.alone (.free program) (opened .empty start) moves)).tasks :=
  ((Twin.opened start).run hsep moves).tasks

end Coordination
