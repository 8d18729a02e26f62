import Coordination.Proofs.Pool.Run
import Coordination.Proofs.Store.Cell

/-! # What a history tells

The history of a run is that of a sequential store. Every event fits what happened before it: its program was brought
there by its own earlier answers, its time is not before theirs, tokens are new, and what the store answered about a key
that only the pool writes is what the cell of that key answers after the requests so far. So statements about all
interleavings become statements about lists of events.
-/
namespace Coordination
open Store (Cell Crash Memory)

variable {ι ω α : Type}

/-- The keys that nobody but the pool writes. -/
def Traffic.Owns (s : Traffic ι ω α) (key : String) : Prop :=
  ∀ r : Store.Request, s.aside r = true → r.key? ≠ some key ∨ r.writes = false

def Event.answered? (e : Event ι ω α) : Option (Answered ω) :=
  match e.what with
  | .answered q a => some ⟨q, a⟩
  | _ => none

def Happening.request? : Happening ω → Option Store.Request
  | .answered (.store r) _ => some r
  | .crashed r _ => some r
  | _ => none

def answersOf (i : Nat) (history : List (Event ι ω α)) : List (Answered ω) :=
  history.filterMap fun e => if e.task = i then e.answered? else none

/-- The cell of a key after what an event did to it. -/
def Event.onto (key : String) (c : Cell) (e : Event ι ω α) : Cell :=
  match e.what.request? with
  | some r => if r.key? = some key then (c.serve e.time r).2 else c
  | none => c

def held (key : String) (c : Cell) (history : List (Event ι ω α)) : Cell := history.foldl (Event.onto key) c

theorem eq_or_before {β : Type} {l : List β} {a b : β} (ha : a ∈ l) (hb : b ∈ l) :
    a = b ∨ (∃ before after, l = before ++ b :: after ∧ a ∈ before) ∨
      ∃ before after, l = before ++ a :: after ∧ b ∈ before := by
  obtain ⟨before, after, rfl⟩ := List.append_of_mem ha
  rcases List.mem_append.1 hb with hb | hb
  · exact .inr (.inr ⟨before, after, rfl, hb⟩)
  · rcases List.mem_cons.1 hb with rfl | hb
    · exact .inl rfl
    · obtain ⟨early, late, rfl⟩ := List.append_of_mem hb
      exact .inr (.inl ⟨before ++ a :: early, late, by simp, by simp⟩)

section Lists
variable (i : Nat) (key : String) (c : Cell) (history : List (Event ι ω α)) (e : Event ι ω α)

@[simp] theorem answersOf_nil : answersOf i ([] : List (Event ι ω α)) = [] := rfl

theorem answersOf_concat :
    answersOf i (history ++ [e]) =
      answersOf i history ++ (if e.task = i then e.answered?.toList else []) := by
  unfold answersOf
  rw [List.filterMap_append]
  by_cases h : e.task = i
  · cases ha : e.answered? <;> simp [h, ha]
  · simp [h]

theorem answersOf_append (more : List (Event ι ω α)) :
    answersOf i (history ++ more) = answersOf i history ++ answersOf i more :=
  List.filterMap_append

theorem held_append (more : List (Event ι ω α)) : held key c (history ++ more) = held key (held key c history) more :=
  List.foldl_append

theorem held_concat : held key c (history ++ [e]) = e.onto key (held key c history) := by
  rw [held_append]
  rfl

end Lists

variable (s : Traffic ι ω α) (cells : String → Cell)

/-- An answer is one that the world could give after a history. -/
def Warranted (before : List (Event ι ω α)) (time : Instant) : (q : Ask) → q.Answer ω → Prop
  | .token, t => t ∉ tokens before
  | .clock, ms => clockBounds.contains ms = true
  | .store r, reply =>
    ∀ key, s.Owns key → r.key? = some key → ((held key (cells key) before).serve time r).1 = .ok reply
  | .work, w => s.works w = true

/-- What happened to a program is due after a history. -/
def Event.Due (before : List (Event ι ω α)) (e : Event ι ω α) : Prop :=
  match e.what with
  | .answered q a => ∃ next, (s.program e.op).Leads (answersOf e.task before) (.ask q next) ∧
      e.result = (next a).result? ∧ Warranted s cells before e.time q a
  | .began => e.result = none ∧ ∃ next, (s.program e.op).Leads (answersOf e.task before) (.ask .work next)
  | .crashed r c => e.result = none ∧
      (∃ next, (s.program e.op).Leads (answersOf e.task before) (.ask (.store r) next)) ∧
      ∀ key, s.Owns key → r.key? = some key → ((held key (cells key) before).serve e.time r).1 = .error c

structure Event.Fits (before : List (Event ι ω α)) (e : Event ι ω α) : Prop where
  admitted : ∃ early, early <+: before ∧ s.admits early e.op = true
  sameCall : ∀ d ∈ before, d.task = e.task → d.op = e.op
  later : ∀ d ∈ before, d.time.nanos ≤ e.time.nanos
  due : e.Due s cells before

/-- Every event of a history fits what is before it. -/
def Sound (history : List (Event ι ω α)) : Prop :=
  ∀ before e after, history = before ++ e :: after → e.Fits s cells before

def Happening.served (r : Store.Request) : Except Crash (Except Failure r.Reply) → Happening ω
  | .ok reply => .answered (.store r) reply
  | .error c => .crashed r c

def resultOf {r : Store.Request} (next : (Ask.store r).Answer ω → Program ω α) :
    Except Crash (Except Failure r.Reply) → Option α
  | .ok reply => (next reply).result?
  | .error _ => none

/-- What the event of a program tells that stands at a question and goes on as `next`. -/
def Event.Tells (before : List (Event ι ω α)) (e : Event ι ω α) : (q : Ask) → (q.Answer ω → Program ω α) → Prop
  | .token, next => ∃ t, e.what = .answered .token t ∧ e.result = (next t).result? ∧ t ∉ tokens before
  | .clock, next => ∃ ms, e.what = .answered .clock ms ∧ e.result = (next ms).result? ∧ clockBounds.contains ms = true
  | .store r, next => ∃ o, e.what = .served r o ∧ e.result = resultOf next o ∧
      ∀ key, s.Owns key → r.key? = some key → ((held key (cells key) before).serve e.time r).1 = o
  | .work, next => e.what = .began ∧ e.result = none ∨
      ∃ w, e.what = .answered .work w ∧ e.result = (next w).result? ∧ s.works w = true

@[simp] theorem Happening.request?_served (r : Store.Request) (o : Except Crash (Except Failure r.Reply)) :
    (served r o : Happening ω).request? = some r := by
  cases o <;> rfl

variable {s cells}

/-- The program of an event stands at a question, and the event tells what became of it. -/
theorem Event.Fits.place {before : List (Event ι ω α)} {e : Event ι ω α} (he : e.Fits s cells before) :
    ∃ q next, (s.program e.op).Leads (answersOf e.task before) (.ask q next) ∧ e.Tells s cells before q next := by
  have hdue := he.due
  obtain ⟨task, op, time, what, result⟩ := e
  cases what with
  | began =>
    obtain ⟨hres, next, hleads⟩ := hdue
    exact ⟨_, next, hleads, .inl ⟨rfl, hres⟩⟩
  | crashed r c =>
    obtain ⟨hres, ⟨next, hleads⟩, hserve⟩ := hdue
    exact ⟨_, next, hleads, .error c, rfl, hres, hserve⟩
  | answered q a =>
    obtain ⟨next, hleads, hres, hwarrant⟩ := hdue
    refine ⟨q, next, hleads, ?_⟩
    cases q with
    | token => exact ⟨a, rfl, hres, hwarrant⟩
    | clock => exact ⟨a, rfl, hres, hwarrant⟩
    | store r => exact ⟨.ok a, rfl, hres, hwarrant⟩
    | work => exact .inr ⟨a, rfl, hres, hwarrant⟩

theorem Event.Tells.question_eq {before : List (Event ι ω α)} {e : Event ι ω α} {q q' : Ask}
    {next : q.Answer ω → Program ω α} {a : q'.Answer ω} (h : e.Tells s cells before q next)
    (hwhat : e.what = .answered q' a) : q = q' := by
  cases q with
  | token =>
    obtain ⟨t, hwhat', _⟩ := h
    cases hwhat'.symm.trans hwhat
    rfl
  | clock =>
    obtain ⟨ms, hwhat', _⟩ := h
    cases hwhat'.symm.trans hwhat
    rfl
  | work =>
    rcases h with ⟨hwhat', _⟩ | ⟨w, hwhat', _⟩
    · cases hwhat'.symm.trans hwhat
    · cases hwhat'.symm.trans hwhat
      rfl
  | store r =>
    obtain ⟨o, hwhat', _⟩ := h
    cases o with
    | error c => cases hwhat'.symm.trans hwhat
    | ok reply =>
      cases hwhat'.symm.trans hwhat
      rfl

theorem Event.Tells.question_eq_work {before : List (Event ι ω α)} {e : Event ι ω α} {q : Ask}
    {next : q.Answer ω → Program ω α} (h : e.Tells s cells before q next) (hwhat : e.what = .began) : q = .work := by
  cases q with
  | token =>
    obtain ⟨t, hwhat', _⟩ := h
    cases hwhat'.symm.trans hwhat
  | clock =>
    obtain ⟨ms, hwhat', _⟩ := h
    cases hwhat'.symm.trans hwhat
  | work => rfl
  | store r =>
    obtain ⟨o, hwhat', _⟩ := h
    cases o <;> cases hwhat'.symm.trans hwhat

theorem Event.Tells.question_eq_store {before : List (Event ι ω α)} {e : Event ι ω α} {q : Ask}
    {next : q.Answer ω → Program ω α} (h : e.Tells s cells before q next) {r : Store.Request}
    (hr : e.what.request? = some r) : q = .store r := by
  cases q with
  | token =>
    obtain ⟨t, hwhat, _⟩ := h
    rw [hwhat] at hr
    cases hr
  | clock =>
    obtain ⟨ms, hwhat, _⟩ := h
    rw [hwhat] at hr
    cases hr
  | work =>
    rcases h with ⟨hwhat, _⟩ | ⟨w, hwhat, _⟩
    · rw [hwhat] at hr
      cases hr
    · rw [hwhat] at hr
      cases hr
  | store r' =>
    obtain ⟨o, hwhat, _⟩ := h
    rw [hwhat, Happening.request?_served] at hr
    cases hr
    rfl

theorem Event.not_answered_of_served {e : Event ι ω α} {r : Store.Request} {o : Except Crash (Except Failure r.Reply)}
    (h : e.what = .served r o) {a : (Ask.store r).Answer ω} (ho : o ≠ .ok a) : e.what ≠ .answered (.store r) a := by
  intro hwhat
  cases o with
  | error c => cases h.symm.trans hwhat
  | ok reply =>
    injection h.symm.trans hwhat with _ hreply
    exact ho (congrArg _ hreply)

theorem Event.onto_served {e : Event ι ω α} {r : Store.Request} {o : Except Crash (Except Failure r.Reply)}
    (h : e.what = .served r o) {key : String} (hr : r.key? = some key) (c : Cell) :
    e.onto key c = (c.serve e.time r).2 := by
  rw [Event.onto, h, Happening.request?_served]
  exact if_pos hr

theorem Event.onto_of_request?_eq_none {e : Event ι ω α} (h : e.what.request? = none) (key : String) (c : Cell) :
    e.onto key c = c := by
  rw [Event.onto, h]

theorem Event.Tells.onto_eq {before : List (Event ι ω α)} {e : Event ι ω α} {q : Ask}
    {next : q.Answer ω → Program ω α} (h : e.Tells s cells before q next)
    (hq : ∀ r, q = .store r → r.writes = false) (key : String) (c : Cell) : e.onto key c = c := by
  cases q with
  | token =>
    obtain ⟨t, hwhat, _⟩ := h
    exact e.onto_of_request?_eq_none (by rw [hwhat]; rfl) key c
  | clock =>
    obtain ⟨ms, hwhat, _⟩ := h
    exact e.onto_of_request?_eq_none (by rw [hwhat]; rfl) key c
  | work =>
    rcases h with ⟨hwhat, _⟩ | ⟨w, hwhat, _⟩
    · exact e.onto_of_request?_eq_none (by rw [hwhat]; rfl) key c
    · exact e.onto_of_request?_eq_none (by rw [hwhat]; rfl) key c
  | store r =>
    obtain ⟨o, hwhat, _⟩ := h
    rw [Event.onto, hwhat, Happening.request?_served]
    simp only [Cell.serve_of_not_writes c e.time (hq r rfl), ite_self]

section Effects
variable {before : List (Event ι ω α)} {e : Event ι ω α} {key : String}

theorem Event.Tells.setIfAbsent {value : String} {ttl : Duration}
    {next : (Ask.store (.setIfAbsent key value ttl)).Answer ω → Program ω α}
    (h : e.Tells s cells before (.store (.setIfAbsent key value ttl)) next) (hkey : s.Owns key) :
    (∃ t, e.what = .answered (.store (.setIfAbsent key value ttl)) (.ok true) ∧ e.result = (next (.ok true)).result? ∧
      (held key (cells key) before).live e.time = none ∧ t.nanos = e.time.nanos + ttl.nanos ∧
      e.onto key (held key (cells key) before) = some ⟨value, some t⟩) ∨
    ∃ o, e.what = .served (.setIfAbsent key value ttl) o ∧ e.result = resultOf next o ∧ o ≠ .ok (.ok true) ∧
      e.onto key (held key (cells key) before) = held key (cells key) before := by
  obtain ⟨o, hwhat, hres, hserve⟩ := h
  have ho := hserve key hkey rfl
  rw [Event.onto_served hwhat rfl]
  rcases (held key (cells key) before).serve_setIfAbsent e.time key value ttl with ⟨t, hlive, ht, hs⟩ | ⟨hne, hs⟩
  · rw [hs] at ho
    subst ho
    exact .inl ⟨t, hwhat, hres, hlive, ht, by rw [hs]⟩
  · exact .inr ⟨o, hwhat, hres, ho ▸ hne, hs⟩

theorem Event.Tells.set {value : String} {ttl : Duration}
    {next : (Ask.store (.set key value (some ttl))).Answer ω → Program ω α}
    (h : e.Tells s cells before (.store (.set key value (some ttl))) next) (hkey : s.Owns key) :
    (∃ t, e.what = .answered (.store (.set key value (some ttl))) (.ok ()) ∧ e.result = (next (.ok ())).result? ∧
      t.nanos = e.time.nanos + ttl.nanos ∧ e.onto key (held key (cells key) before) = some ⟨value, some t⟩) ∨
    ∃ o, e.what = .served (.set key value (some ttl)) o ∧ e.result = resultOf next o ∧ o ≠ .ok (.ok ()) ∧
      e.onto key (held key (cells key) before) = held key (cells key) before := by
  obtain ⟨o, hwhat, hres, hserve⟩ := h
  have ho := hserve key hkey rfl
  rw [Event.onto_served hwhat rfl]
  rcases (held key (cells key) before).serve_set e.time key value ttl with ⟨t, ht, hs⟩ | ⟨hne, hs⟩
  · rw [hs] at ho
    subst ho
    exact .inl ⟨t, hwhat, hres, ht, by rw [hs]⟩
  · exact .inr ⟨o, hwhat, hres, ho ▸ hne, hs⟩

theorem Event.Tells.compareAndDelete {expected : String}
    {next : (Ask.store (.compareAndDelete key expected)).Answer ω → Program ω α}
    (h : e.Tells s cells before (.store (.compareAndDelete key expected)) next) (hkey : s.Owns key) :
    (∃ entry, e.what = .answered (.store (.compareAndDelete key expected)) (.ok true) ∧
      e.result = (next (.ok true)).result? ∧ (held key (cells key) before).live e.time = some entry ∧
      entry.value = expected ∧ e.onto key (held key (cells key) before) = none) ∨
    e.what = .answered (.store (.compareAndDelete key expected)) (.ok false) ∧
      e.result = (next (.ok false)).result? ∧
      (∀ entry, (held key (cells key) before).live e.time = some entry → entry.value ≠ expected) ∧
      e.onto key (held key (cells key) before) = held key (cells key) before := by
  obtain ⟨o, hwhat, hres, hserve⟩ := h
  have ho := hserve key hkey rfl
  rw [Event.onto_served hwhat rfl]
  rcases (held key (cells key) before).serve_compareAndDelete e.time key expected with
    ⟨entry, hlive, hvalue, hs⟩ | ⟨hne, hs⟩
  · rw [hs] at ho
    subst ho
    exact .inl ⟨entry, hwhat, hres, hlive, hvalue, by rw [hs]⟩
  · rw [hs] at ho
    subst ho
    exact .inr ⟨hwhat, hres, hne, by rw [hs]⟩

end Effects

theorem Sound.concat {history : List (Event ι ω α)} {e : Event ι ω α} (h : Sound s cells history)
    (he : e.Fits s cells history) : Sound s cells (history ++ [e]) := by
  intro before d after heq
  rcases List.eq_nil_or_concat after with rfl | ⟨rest, last, rfl⟩
  · obtain ⟨rfl, hd⟩ := List.append_inj' heq rfl
    cases hd
    exact he
  · rw [List.concat_eq_append, ← List.cons_append, ← List.append_assoc] at heq
    exact h before d rest (List.append_inj' heq rfl).1

theorem Sound.of_append {before after : List (Event ι ω α)} (h : Sound s cells (before ++ after)) :
    Sound s cells before := by
  intro early e late heq
  exact h early e (late ++ after) (by rw [heq, List.append_assoc, List.cons_append])

theorem Sound.induction {P : List (Event ι ω α) → Prop} {history : List (Event ι ω α)} (h : Sound s cells history)
    (nil : P [])
    (concat : ∀ before e, Sound s cells before → e.Fits s cells before → P before → P (before ++ [e])) : P history := by
  induction hn : history.length generalizing history with
  | zero =>
    rw [List.length_eq_zero_iff.1 hn]
    exact nil
  | succ n ih =>
    rcases List.eq_nil_or_concat history with rfl | ⟨before, e, rfl⟩
    · cases hn
    · rw [List.concat_eq_append] at h hn ⊢
      have hbefore := h.of_append
      exact concat before e hbefore (h before e [] rfl) (ih hbefore (by simpa using hn))

theorem Sound.time_le {before after : List (Event ι ω α)} {e : Event ι ω α} (h : Sound s cells (before ++ e :: after)) :
    (∀ d ∈ before, d.time.nanos ≤ e.time.nanos) ∧ ∀ d ∈ after, e.time.nanos ≤ d.time.nanos := by
  refine ⟨(h before e after rfl).later, ?_⟩
  intro d hd
  obtain ⟨early, late, rfl⟩ := List.append_of_mem hd
  refine (h (before ++ e :: early) d late (by simp)).later e ?_
  simp

theorem Sound.result_eq_none {history : List (Event ι ω α)} (h : Sound s cells history) {i : Nat} {op : ι} {q : Ask}
    {next : q.Answer ω → Program ω α} (hop : ∀ f ∈ history, f.task = i → f.op = op)
    (hasks : (s.program op).Leads (answersOf i history) (.ask q next)) : ∀ f ∈ history, f.task = i → f.result = none := by
  intro f hf htask
  obtain ⟨before, after, rfl⟩ := List.append_of_mem hf
  have hdue := (h before f after rfl).due
  rw [← hop f hf htask, List.append_cons, answersOf_append, answersOf_concat, if_pos htask] at hasks
  obtain ⟨task, op', time, what, result⟩ := f
  cases what with
  | began => exact hdue.1
  | crashed r c => exact hdue.1
  | answered q' a =>
    obtain ⟨next', hleads, hres, _⟩ := hdue
    cases hdone : next' a with
    | ask q'' next'' => rw [show result = _ from hres, hdone, Program.result?_ask]
    | done r =>
      -- Then it would be done before it asks.
      cases htask
      obtain ⟨between, hfirst, hrest⟩ := Program.leads_append hasks
      rw [hfirst.unique (hdone ▸ hleads.next a)] at hrest
      exact absurd hrest Program.leads_done_ask

theorem Sound.result_eq_none_before {before after : List (Event ι ω α)} {e : Event ι ω α}
    (h : Sound s cells (before ++ e :: after)) : ∀ f ∈ before, f.task = e.task → f.result = none := by
  have he := h before e after rfl
  obtain ⟨q, next, hasks, _⟩ := he.place
  exact h.of_append.result_eq_none he.sameCall hasks

theorem Sound.eq_of_result {history : List (Event ι ω α)} (h : Sound s cells history) {e f : Event ι ω α}
    (he : e ∈ history) (hf : f ∈ history) (htask : e.task = f.task) (heres : e.result ≠ none) (hfres : f.result ≠ none) :
    e = f := by
  rcases eq_or_before he hf with heq | ⟨before, after, rfl, hbefore⟩ | ⟨before, after, rfl, hbefore⟩
  · exact heq
  · exact absurd (h.result_eq_none_before e hbefore htask) heres
  · exact absurd (h.result_eq_none_before f hbefore htask.symm) hfres

theorem answersOf_mem {history : List (Event ι ω α)} {e : Event ι ω α} (he : e ∈ history) {q : Ask} {a : q.Answer ω}
    (hwhat : e.what = .answered q a) : (⟨q, a⟩ : Answered ω) ∈ answersOf e.task history :=
  List.mem_filterMap.2 ⟨e, he, by rw [if_pos rfl, Event.answered?, hwhat]⟩

theorem mem_answersOf {i : Nat} {history : List (Event ι ω α)} {q : Ask} {a : q.Answer ω}
    (h : (⟨q, a⟩ : Answered ω) ∈ answersOf i history) : ∃ e ∈ history, e.task = i ∧ e.what = .answered q a := by
  obtain ⟨e, he, hanswer⟩ := List.mem_filterMap.1 h
  obtain ⟨task, op, time, what, result⟩ := e
  split at hanswer
  · next htask =>
    cases what with
    | answered q' a' =>
      cases hanswer
      exact ⟨_, he, htask, rfl⟩
    | began => cases hanswer
    | crashed r c => cases hanswer
  · cases hanswer

/-- Every token is handed out once. -/
theorem Sound.task_eq_of_token {history : List (Event ι ω α)} (h : Sound s cells history) {e f : Event ι ω α} {t : String}
    (he : e ∈ history) (hf : f ∈ history) (het : e.what = .answered .token t) (hft : f.what = .answered .token t) :
    e.task = f.task := by
  -- The later one of two would be a token that was handed out before.
  have later : ∀ {before after : List (Event ι ω α)} {e f : Event ι ω α}, Sound s cells (before ++ f :: after) →
      e ∈ before → e.what = .answered .token t → f.what ≠ .answered .token t := by
    intro before after e f h he het hft
    have hdue := (h before f after rfl).due
    rw [Event.Due, hft] at hdue
    obtain ⟨_, _, _, hnew⟩ := hdue
    exact hnew (List.mem_filterMap.2 ⟨e, he, by rw [Event.token?, het]⟩)
  rcases eq_or_before he hf with rfl | ⟨before, after, rfl, hbefore⟩ | ⟨before, after, rfl, hbefore⟩
  · rfl
  · exact absurd hft (later h hbefore het)
  · exact absurd het (later h hbefore hft)

/-- What a run keeps: its history is sound, and its tasks and memory are where the history has brought them. -/
structure Pool.Consistent (s : Traffic ι ω α) (cells : String → Cell) (p : Pool ι ω α) : Prop where
  admitted : ∀ (i : Nat) (task : Task ι ω α), p.tasks[i]? = some task → ∃ early, early <+: p.history ∧ s.admits early task.op = true
  leads : ∀ (i : Nat) (task : Task ι ω α), p.tasks[i]? = some task → (s.program task.op).Leads (answersOf i p.history) task.rest
  called : ∀ e ∈ p.history, ∃ task, p.tasks[e.task]? = some task ∧ task.op = e.op
  past : ∀ e ∈ p.history, e.time.nanos ≤ p.now.nanos
  sound : Sound s cells p.history
  shows : ∀ key, s.Owns key → p.memory.Shows p.now key (held key (cells key) p.history)

namespace Pool.Consistent
variable {p : Pool ι ω α}

theorem opened {m : Memory} {now : Instant} (h : ∀ key, m.Shows now key (cells key)) :
    (Pool.opened m now : Pool ι ω α).Consistent s cells where
  admitted := by simp [Pool.opened]
  leads := by simp [Pool.opened]
  called := by simp [Pool.opened]
  past := by simp [Pool.opened]
  sound := by
    intro before e after heq
    simp [Pool.opened] at heq
  shows key _ := h key

theorem answersOf_new (h : p.Consistent s cells) : answersOf p.tasks.length p.history = [] := by
  rw [answersOf, List.filterMap_eq_nil_iff]
  intro e he
  obtain ⟨task, ht, _⟩ := h.called e he
  have hlt := (List.getElem?_eq_some_iff.1 ht).1
  rw [if_neg (by omega)]

theorem call (h : p.Consistent s cells) (op : ι) (hop : s.admits p.history op = true) :
    ({ p with tasks := p.tasks ++ [⟨op, s.program op, .waiting⟩] } : Pool ι ω α).Consistent s cells where
  admitted := by
    intro i task ht
    rcases getElem?_concat_eq_some ht with ht | ⟨_, rfl⟩
    · exact h.admitted i task ht
    · exact ⟨p.history, List.prefix_refl _, hop⟩
  leads := by
    intro i task ht
    rcases getElem?_concat_eq_some ht with ht | ⟨rfl, rfl⟩
    · exact h.leads i task ht
    · simp only [h.answersOf_new]
      exact .start
  called := by
    intro e he
    obtain ⟨task, ht, hop'⟩ := h.called e he
    have hlt := (List.getElem?_eq_some_iff.1 ht).1
    exact ⟨task, by rw [List.getElem?_append_left hlt]; exact ht, hop'⟩
  past := h.past
  sound := h.sound
  shows := h.shows

theorem aside (h : p.Consistent s cells) (r : Store.Request) (hr : s.aside r = true) :
    ({ p with memory := (p.memory.serve p.now r).2 } : Pool ι ω α).Consistent s cells :=
  { h with shows := fun key hkey => Memory.serve_shows_other (h.shows key hkey) (hkey r hr) }

theorem advance (h : p.Consistent s cells) (d : Duration) :
    ({ p with now := p.now.advance d } : Pool ι ω α).Consistent s cells := by
  have hle : p.now.nanos ≤ (p.now.advance d).nanos := Nat.le_add_right ..
  exact { h with
    past := fun e he => Nat.le_trans (h.past e he) hle
    shows := fun key hkey => (h.shows key hkey).later hle }

theorem fits (h : p.Consistent s cells) {i : Nat} {task : Task ι ω α} (ht : p.tasks[i]? = some task)
    {what : Happening ω} {result : Option α}
    (hdue : (⟨i, task.op, p.now, what, result⟩ : Event ι ω α).Due s cells p.history) :
    (⟨i, task.op, p.now, what, result⟩ : Event ι ω α).Fits s cells p.history where
  admitted := h.admitted i task ht
  sameCall := by
    intro d hd hi
    obtain ⟨task', ht', hop⟩ := h.called d hd
    rw [show d.task = i from hi, ht] at ht'
    cases ht'
    exact hop.symm
  later := h.past
  due := hdue

theorem note (h : p.Consistent s cells) {i : Nat} {task : Task ι ω α} (ht : p.tasks[i]? = some task) {m : Memory}
    {rest : Program ω α} {status : Status} {what : Happening ω} {result : Option α} {e : Event ι ω α}
    (he : e = ⟨i, task.op, p.now, what, result⟩) (hdue : e.Due s cells p.history)
    (hrest : (s.program task.op).Leads (answersOf i (p.history ++ [e])) rest)
    (hm : ∀ key, s.Owns key → m.Shows p.now key (e.onto key (held key (cells key) p.history))) :
    (({ p with memory := m } : Pool ι ω α).note i task.op rest status what result).Consistent s cells := by
  subst he
  have hother : ∀ j, j ≠ i →
      answersOf j (p.history ++ [⟨i, task.op, p.now, what, result⟩]) = answersOf j p.history := by
    intro j hj
    rw [answersOf_concat, if_neg (Ne.symm hj), List.append_nil]
  have htasks : ∀ j, (({ p with memory := m } : Pool ι ω α).note i task.op rest status what result).tasks[j]? =
      if i = j then some ⟨task.op, rest, status⟩ else p.tasks[j]? :=
    fun j => Pool.getElem?_note (p := { p with memory := m }) ht j
  -- Each clause is asked of the noted task, which the assumptions are about, and of any other, which `hother` lets be.
  constructor
  · intro j task' ht'
    rw [htasks j] at ht'
    obtain ⟨early, hearly, hop⟩ : ∃ early, early <+: p.history ∧ s.admits early task'.op = true := by
      by_cases hij : i = j
      · rw [if_pos hij] at ht'
        cases ht'
        exact h.admitted i task ht
      · rw [if_neg hij] at ht'
        exact h.admitted j task' ht'
    exact ⟨early, hearly.trans (List.prefix_append ..), hop⟩
  · intro j task' ht'
    rw [htasks j] at ht'
    by_cases hij : i = j
    · rw [if_pos hij] at ht'
      cases ht'
      subst hij
      exact hrest
    · rw [if_neg hij] at ht'
      simp only [Pool.note, hother j (Ne.symm hij)]
      exact h.leads j task' ht'
  · intro d hd
    rw [htasks d.task]
    rcases List.mem_append.1 hd with hd | hd
    · obtain ⟨task', ht', hop⟩ := h.called d hd
      by_cases hij : i = d.task
      · rw [if_pos hij]
        rw [← hij, ht] at ht'
        cases ht'
        exact ⟨_, rfl, hop⟩
      · rw [if_neg hij]
        exact ⟨task', ht', hop⟩
    · cases List.mem_singleton.1 hd
      exact ⟨_, if_pos rfl, rfl⟩
  · intro d hd
    rcases List.mem_append.1 hd with hd | hd
    · exact h.past d hd
    · cases List.mem_singleton.1 hd
      exact Nat.le_refl _
  · exact h.sound.concat (h.fits ht hdue)
  · intro key hkey
    simp only [Pool.note, held_concat]
    exact hm key hkey

theorem shows_served (h : p.Consistent s cells) {e : Event ι ω α} {r : Store.Request} (hr : e.what.request? = some r)
    (htime : e.time = p.now) {key : String} (hkey : s.Owns key) :
    (p.memory.serve p.now r).2.Shows p.now key (e.onto key (held key (cells key) p.history)) := by
  simp only [Event.onto, hr, htime]
  split
  · next hrk => exact (Memory.serve_agrees (h.shows key hkey) hrk).shows
  · next hrk => exact Memory.serve_shows_other (h.shows key hkey) (.inl hrk)

theorem serve_eq (h : p.Consistent s cells) {r : Store.Request} {key : String} (hkey : s.Owns key)
    (hrk : r.key? = some key) :
    ((held key (cells key) p.history).serve p.now r).1 = (p.memory.serve p.now r).1 :=
  (Memory.serve_agrees (h.shows key hkey) hrk).outcome.symm

theorem answer (h : p.Consistent s cells) {i : Nat} {op : ι} {q : Ask} {next : q.Answer ω → Program ω α}
    {status : Status} {a : q.Answer ω} {m : Memory} (ht : p.tasks[i]? = some ⟨op, .ask q next, status⟩)
    (hg : p.Granted s q status a m) :
    (({ p with memory := m } : Pool ι ω α).answer i op q a next).Consistent s cells := by
  have hleads := h.leads i _ ht
  have hrest : (s.program op).Leads
      (answersOf i (p.history ++ [⟨i, op, p.now, .answered q a, (next a).result?⟩])) (next a) := by
    rw [answersOf_concat, if_pos rfl]
    exact hleads.next a
  refine h.note ht rfl ⟨next, hleads, rfl, ?_⟩ hrest ?_
  · cases q with
    | token => exact hg.2.1
    | clock => exact hg.2.1
    | work => exact hg.2.1
    | store r =>
      intro key hkey hrk
      rw [h.serve_eq hkey hrk, hg.2]
  · intro key hkey
    cases q with
    | token => exact hg.2.2 ▸ h.shows key hkey
    | clock => exact hg.2.2 ▸ h.shows key hkey
    | work => exact hg.2.2 ▸ h.shows key hkey
    | store r =>
      have hserved := h.shows_served (e := ⟨i, op, p.now, .answered (.store r) a, (next a).result?⟩) rfl rfl hkey
      rwa [hg.2] at hserved

theorem crash (h : p.Consistent s cells) {i : Nat} {op : ι} {r : Store.Request}
    {next : (Ask.store r).Answer ω → Program ω α} {c : Crash} {m : Memory}
    (ht : p.tasks[i]? = some ⟨op, .ask (.store r) next, .waiting⟩) (hc : p.memory.serve p.now r = (.error c, m)) :
    (({ p with memory := m } : Pool ι ω α).note i op (.ask (.store r) next) .crashed (.crashed r c)
      none).Consistent s cells := by
  have hleads := h.leads i _ ht
  refine h.note ht rfl ⟨rfl, ⟨next, hleads⟩, ?_⟩ ?_ ?_
  · intro key hkey hrk
    rw [h.serve_eq hkey hrk, hc]
  · rw [answersOf_concat, if_pos rfl]
    simpa [Event.answered?] using hleads
  · intro key hkey
    have hserved := h.shows_served (e := ⟨i, op, p.now, .crashed r c, none⟩) rfl rfl hkey
    rwa [hc] at hserved

theorem begin (h : p.Consistent s cells) {i : Nat} {op : ι} {next : ω → Program ω α}
    (ht : p.tasks[i]? = some ⟨op, .ask .work next, .waiting⟩) :
    (p.note i op (.ask .work next) .working .began none).Consistent s cells := by
  have hleads := h.leads i _ ht
  refine h.note (m := p.memory) ht rfl ⟨rfl, next, hleads⟩ ?_ h.shows
  rw [answersOf_concat, if_pos rfl]
  simpa [Event.answered?] using hleads

theorem change (h : p.Consistent s cells) {p' : Pool ι ω α} (hp : Change s p p') : p'.Consistent s cells := by
  cases hp with
  | none => exact h
  | call op hop => exact h.call op hop
  | answer ht hg => exact h.answer ht hg
  | crash ht hc => exact h.crash ht hc
  | begin ht => exact h.begin ht
  | aside r hr => exact h.aside r hr
  | advance d => exact h.advance d

end Pool.Consistent

theorem Pool.consistent_run {m : Memory} {now : Instant} (hm : ∀ key, m.Shows now key (cells key))
    (moves : List (Move ι ω)) : ((Pool.opened m now).run s moves).Consistent s cells :=
  Pool.run_induction (fun h hp => h.change hp) (Pool.Consistent.opened hm) moves

/-- The cells of a run start from what the memory keeps. -/
theorem Pool.consistent_found (s : Traffic ι ω α) (m : Memory) (now : Instant) (moves : List (Move ι ω)) :
    ((Pool.opened m now).run s moves).Consistent s m.entries.find? :=
  Pool.consistent_run (fun key => m.shows_find? now key) moves

def cellsBut (m : Memory) (key : String) : String → Cell := fun other =>
  if other = key then none else m.entries.find? other

@[simp] theorem cellsBut_self (m : Memory) (key : String) : cellsBut m key key = none := if_pos rfl

theorem Pool.consistent_unseen {m : Memory} {now : Instant} {key : String} (h : m.visible? now key = none)
    (moves : List (Move ι ω)) : ((Pool.opened m now).run s moves).Consistent s (cellsBut m key) := by
  apply Pool.consistent_run
  intro other
  unfold cellsBut
  split
  · next heq =>
    subst heq
    exact Memory.shows_none h
  · exact m.shows_find? now other

theorem Traffic.owns_of_leaves {key : String} (h : ∀ r, s.aside r = true → r.leaves key = true) : s.Owns key := by
  intro r hr
  exact Store.Request.leaves_iff.1 (h r hr)

end Coordination
