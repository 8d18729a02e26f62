import Coordination.Program

/-! # Where answers lead a program

A program that has got some answers in turn stands at one place of its tree. The places of a given program are found
by going through its questions from the front.
-/
namespace Coordination

abbrev Answered (ω : Type) := (q : Ask) × q.Answer ω

namespace Program

variable {ω α : Type}

/-- The program goes on as `rest` once it has got the answers of the log, oldest first. -/
inductive Leads (p : Program ω α) : List (Answered ω) → Program ω α → Prop
  | start : Leads p [] p
  | next {log : List (Answered ω)} {q : Ask} {next : q.Answer ω → Program ω α} (h : Leads p log (.ask q next))
      (a : q.Answer ω) : Leads p (log ++ [⟨q, a⟩]) (next a)

def result? : Program ω α → Option α
  | .done a => some a
  | .ask _ _ => none

@[simp] theorem result?_done (a : α) : (done a : Program ω α).result? = some a := rfl

@[simp] theorem result?_ask (q : Ask) (next : q.Answer ω → Program ω α) : (ask q next).result? = none := rfl

theorem leads_done {a : α} {log : List (Answered ω)} {rest : Program ω α} (h : (done a).Leads log rest) :
    log = [] ∧ rest = .done a := by
  induction h with
  | start => exact ⟨rfl, rfl⟩
  | next _ _ ih => cases ih.2

theorem leads_ask {q : Ask} {next : q.Answer ω → Program ω α} {log : List (Answered ω)} {rest : Program ω α}
    (h : (ask q next).Leads log rest) :
    log = [] ∧ rest = .ask q next ∨ ∃ a log', log = ⟨q, a⟩ :: log' ∧ (next a).Leads log' rest := by
  induction h with
  | start => exact .inl ⟨rfl, rfl⟩
  | next _ b ih =>
    rcases ih with ⟨rfl, heq⟩ | ⟨a, log', rfl, hlog⟩
    · cases heq
      exact .inr ⟨b, [], rfl, .start⟩
    · exact .inr ⟨a, log' ++ [⟨_, b⟩], rfl, hlog.next b⟩

theorem leads_done_ask {a : α} {log : List (Answered ω)} {q : Ask} {next : q.Answer ω → Program ω α} :
    ¬ (done a).Leads log (.ask q next) := by
  intro h
  cases (leads_done h).2

theorem Leads.unique {p rest rest' : Program ω α} {log : List (Answered ω)} (h : p.Leads log rest)
    (h' : p.Leads log rest') : rest = rest' := by
  induction p generalizing log with
  | done a => rw [(leads_done h).2, (leads_done h').2]
  | ask q next ih =>
    rcases leads_ask h with ⟨rfl, rfl⟩ | ⟨a, log₁, rfl, h₁⟩
    · rcases leads_ask h' with ⟨_, rfl⟩ | ⟨_, _, hlog, _⟩
      · rfl
      · cases hlog
    · rcases leads_ask h' with ⟨hlog, _⟩ | ⟨_, _, hlog, h₂⟩
      · cases hlog
      · cases hlog
        exact ih a h₁ h₂

theorem leads_append {p rest : Program ω α} {log more : List (Answered ω)} (h : p.Leads (log ++ more) rest) :
    ∃ between, p.Leads log between ∧ between.Leads more rest := by
  generalize hall : log ++ more = all at h
  induction h generalizing more with
  | start =>
    obtain ⟨rfl, rfl⟩ := List.append_eq_nil_iff.1 hall
    exact ⟨p, .start, .start⟩
  | next h a ih =>
    rcases List.eq_nil_or_concat more with rfl | ⟨more, x, rfl⟩
    · rw [List.append_nil] at hall
      exact ⟨_, hall ▸ h.next a, .start⟩
    · rw [List.concat_eq_append, ← List.append_assoc] at hall
      obtain ⟨hlog, hx⟩ := List.append_inj' hall rfl
      obtain ⟨between, hfirst, hrest⟩ := ih hlog
      cases hx
      exact ⟨between, hfirst, by rw [List.concat_eq_append]; exact hrest.next a⟩

theorem leads_single {q q' : Ask} {next : q.Answer ω → Program ω α} {next' : q'.Answer ω → Program ω α}
    {log : List (Answered ω)} (hnext : ∀ a, ∃ b, next a = .done b) (h : (ask q next).Leads log (.ask q' next')) :
    ask q' next' = ask q next := by
  rcases leads_ask h with ⟨_, heq⟩ | ⟨a, log', _, hdone⟩
  · exact heq
  · obtain ⟨b, hb⟩ := hnext a
    rw [hb] at hdone
    exact absurd hdone leads_done_ask

/-- A program that goes on after another is still within the first one, or has come to its end and got more answers. -/
theorem leads_bind {β : Type} {p : Program ω α} {k : α → Program ω β} {log : List (Answered ω)} {rest : Program ω β}
    (h : (p.bind k).Leads log rest) :
    (∃ rest', p.Leads log rest' ∧ rest = rest'.bind k) ∨
      ∃ log' a x more, log = log' ++ x :: more ∧ p.Leads log' (.done a) ∧ (k a).Leads (x :: more) rest := by
  induction h with
  | start => exact .inl ⟨p, .start, rfl⟩
  | @next log q next _ b ih =>
    rcases ih with ⟨rest', hp, heq⟩ | ⟨log', a, x, more, rfl, hp, hk⟩
    · cases rest' with
      | done a =>
        have hk : (k a).Leads [] (.ask q next) := heq ▸ .start
        exact .inr ⟨log, a, ⟨q, b⟩, [], rfl, hp, hk.next b⟩
      | ask q' next' =>
        cases heq
        exact .inl ⟨next' b, hp.next b, rfl⟩
    · have hnext := hk.next b
      rw [List.cons_append] at hnext
      exact .inr ⟨log', a, x, _, by simp, hp, hnext⟩

theorem leads_map_ask {β : Type} {p : Program ω α} {f : α → β} {log : List (Answered ω)} {q : Ask}
    {next : q.Answer ω → Program ω β} (h : (p.bind fun a => .done (f a)).Leads log (.ask q next)) :
    ∃ next', p.Leads log (.ask q next') ∧ next = fun a => (next' a).bind fun a => .done (f a) := by
  rcases leads_bind h with ⟨rest', hp, heq⟩ | ⟨_, _, _, _, _, _, hdone⟩
  · cases rest' with
    | done a => cases heq
    | ask q' next' =>
      cases heq
      exact ⟨next', hp, rfl⟩
  · exact absurd hdone leads_done_ask

end Program

namespace Action

variable {ω α β : Type}

@[simp] theorem run_pure (a : α) : (pure a : Action ω α).run = .done (.ok a) := rfl

@[simp] theorem run_call (r : Store.Request) : (call r : Action ω r.Reply).run = .ask (.store r) .done := rfl

theorem run_call_bind (r : Store.Request) (f : r.Reply → Action ω β) :
    (call r >>= f).run = .ask (.store r) fun reply => match reply with
      | .ok a => (f a).run
      | .error failure => .done (.error failure) := by
  show Program.ask (.store r) _ = _
  congr 1
  funext reply
  cases reply <;> rfl

theorem run_token_bind (f : String → Action ω β) : (token >>= f).run = .ask .token fun t => (f t).run := rfl

theorem run_clock_bind (f : Int → Action ω β) : (clock >>= f).run = .ask .clock fun ms => (f ms).run := rfl

theorem run_ofExcept_bind (e : Except Failure α) (f : α → Action ω β) :
    (ofExcept e >>= f).run = match e with
      | .ok a => (f a).run
      | .error failure => .done (.error failure) := by
  cases e <;> rfl

@[simp] theorem run_ofExcept (e : Except Failure α) : (ofExcept e : Action ω α).run = .done e := by
  cases e <;> rfl

end Action

end Coordination
