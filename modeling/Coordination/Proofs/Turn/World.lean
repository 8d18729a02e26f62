import Coordination.Proofs.Pool.Path

/-! # Programs in any world

A world answers every question as it likes and may look at all that it has answered before. What a program does in every
world is read off its tree: how often it lets work run, what it comes to, and whether a request that fails ends it.
-/
namespace Coordination

/-- Answers a question, after what was answered before. -/
abbrev World (ω : Type) := List (Answered ω) → (q : Ask) → q.Answer ω

def isWork {ω : Type} (x : Answered ω) : Bool := x.1 = .work

namespace Program

variable {ω α β : Type}

/-- Goes on after some answers: all answers in the end, oldest first, and what the program comes to. -/
def courseFrom (world : World ω) (log : List (Answered ω)) : Program ω α → List (Answered ω) × α
  | .done a => (log, a)
  | .ask q next => (next (world log q)).courseFrom world (log ++ [⟨q, world log q⟩])

def course (world : World ω) (p : Program ω α) : List (Answered ω) × α := p.courseFrom world []

theorem leads_courseFrom (world : World ω) {p rest : Program ω α} {log : List (Answered ω)} (h : p.Leads log rest) :
    p.Leads (rest.courseFrom world log).1 (.done (rest.courseFrom world log).2) := by
  induction rest generalizing log with
  | done a => exact h
  | ask q next ih => exact ih (world log q) (h.next (world log q))

theorem leads_course (world : World ω) (p : Program ω α) :
    p.Leads (p.course world).1 (.done (p.course world).2) :=
  leads_courseFrom world .start

theorem Leads.trans {p q r : Program ω α} {log more : List (Answered ω)} (h : p.Leads log q) (h' : q.Leads more r) :
    p.Leads (log ++ more) r := by
  induction h' with
  | start => rwa [List.append_nil]
  | next _ a ih => exact List.append_assoc log .. ▸ ih.next a

theorem Leads.within {p rest : Program ω α} {log : List (Answered ω)} (h : p.Leads log rest) (k : α → Program ω β) :
    (p.bind k).Leads log (rest.bind k) := by
  induction h with
  | start => exact .start
  | next _ a ih => exact ih.next a

theorem Leads.after {p : Program ω α} {k : α → Program ω β} {a : α} {rest : Program ω β} {log more : List (Answered ω)}
    (h : p.Leads log (.done a)) (h' : (k a).Leads more rest) : (p.bind k).Leads (log ++ more) rest :=
  (h.within k).trans h'

/-- Where a program that goes on after another asks something, it is within the first one or past its end. -/
theorem asks_of_leads_bind {p : Program ω α} {k : α → Program ω β} {log : List (Answered ω)} {q : Ask}
    {next : q.Answer ω → Program ω β} (h : (p.bind k).Leads log (.ask q next)) :
    (∃ next', p.Leads log (.ask q next') ∧ next = fun x => (next' x).bind k) ∨
      ∃ log' a more, log = log' ++ more ∧ p.Leads log' (.done a) ∧ (k a).Leads more (.ask q next) := by
  rcases leads_bind h with ⟨rest', hp, heq⟩ | ⟨log', a, x, more, hlog, hp, hk⟩
  · cases rest' with
    | done a => exact .inr ⟨log, a, [], (List.append_nil log).symm, hp, heq ▸ .start⟩
    | ask q' next' =>
      cases heq
      exact .inl ⟨next', hp, rfl⟩
  · exact .inr ⟨log', a, x :: more, hlog, hp, hk⟩

theorem leads_bind_done {p : Program ω α} {k : α → Program ω β} {log : List (Answered ω)} {b : β}
    (h : (p.bind k).Leads log (.done b)) :
    ∃ log' a more, log = log' ++ more ∧ p.Leads log' (.done a) ∧ (k a).Leads more (.done b) := by
  rcases leads_bind h with ⟨rest', hp, heq⟩ | ⟨log', a, x, more, hlog, hp, hk⟩
  · cases rest' with
    | done a => exact ⟨log, a, [], (List.append_nil log).symm, hp, heq ▸ .start⟩
    | ask q next => cases heq
  · exact ⟨log', a, x :: more, hlog, hp, hk⟩

theorem leads_map_done {p : Program ω α} {f : α → β} {log : List (Answered ω)} {b : β} :
    (p.bind fun a => .done (f a)).Leads log (.done b) ↔ ∃ a, b = f a ∧ p.Leads log (.done a) := by
  constructor
  · intro h
    obtain ⟨log', a, more, rfl, hp, hdone⟩ := leads_bind_done h
    obtain ⟨rfl, heq⟩ := leads_done hdone
    cases heq
    exact ⟨a, rfl, (List.append_nil log').symm ▸ hp⟩
  · rintro ⟨a, rfl, hp⟩
    exact hp.within _

theorem leads_cons {p rest : Program ω α} {q : Ask} {a : q.Answer ω} {more : List (Answered ω)}
    (h : p.Leads (⟨q, a⟩ :: more) rest) : ∃ next, p = .ask q next ∧ (next a).Leads more rest := by
  cases p with
  | done b => cases (leads_done h).1
  | ask q' next =>
    rcases leads_ask h with ⟨hlog, _⟩ | ⟨_, _, hlog, hmore⟩
    · cases hlog
    · cases hlog
      exact ⟨next, rfl, hmore⟩

def WorksAtMost : Program ω α → Nat → Prop
  | .done _, _ => True
  | .ask .work next, n => ∃ k, n = k + 1 ∧ ∀ w, (next w).WorksAtMost k
  | .ask (.store _) next, n => ∀ reply, (next reply).WorksAtMost n
  | .ask .token next, n => ∀ t, (next t).WorksAtMost n
  | .ask .clock next, n => ∀ ms, (next ms).WorksAtMost n

theorem exists_work {log : List (Answered ω)} (h : 0 < log.countP isWork) :
    ∃ own w rest, log = own ++ ⟨.work, w⟩ :: rest := by
  obtain ⟨⟨q, w⟩, hmem, hwork⟩ := List.countP_pos_iff.1 h
  obtain ⟨own, rest, hlog⟩ := List.append_of_mem hmem
  obtain rfl : q = .work := of_decide_eq_true hwork
  exact ⟨own, w, rest, hlog⟩

theorem WorksAtMost.mono {p : Program ω α} {m n : Nat} (h : p.WorksAtMost m) (hle : m ≤ n) : p.WorksAtMost n := by
  induction p generalizing m n with
  | done a => trivial
  | ask q next ih =>
    cases q with
    | work =>
      obtain ⟨k, rfl, hnext⟩ := h
      obtain ⟨n, rfl⟩ := Nat.exists_eq_add_of_le' (Nat.le_trans (Nat.le_add_left 1 k) hle)
      exact ⟨n, rfl, fun w => ih w (hnext w) (Nat.le_of_succ_le_succ hle)⟩
    | store r => exact fun reply => ih reply (h reply) hle
    | token => exact fun t => ih t (h t) hle
    | clock => exact fun ms => ih ms (h ms) hle

theorem WorksAtMost.bind {p : Program ω α} {k : α → Program ω β} {m n : Nat} (hp : p.WorksAtMost m)
    (hk : ∀ a, (k a).WorksAtMost n) : (p.bind k).WorksAtMost (m + n) := by
  induction p generalizing m with
  | done a => exact (hk a).mono (Nat.le_add_left n m)
  | ask q next ih =>
    cases q with
    | work =>
      obtain ⟨m, rfl, hnext⟩ := hp
      exact ⟨m + n, Nat.succ_add m n, fun w => ih w (hnext w)⟩
    | store r => exact fun reply => ih reply (hp reply)
    | token => exact fun t => ih t (hp t)
    | clock => exact fun ms => ih ms (hp ms)

theorem WorksAtMost.of_leads {p rest : Program ω α} {n : Nat} (h : p.WorksAtMost n) {log : List (Answered ω)}
    (hleads : p.Leads log rest) : ∃ k, log.countP isWork + k = n ∧ rest.WorksAtMost k := by
  induction hleads with
  | start => exact ⟨n, Nat.zero_add n, h⟩
  | @next log q next _ a ih =>
    obtain ⟨k, hcount, hrest⟩ := ih
    rw [List.countP_append, List.countP_singleton]
    cases q with
    | work =>
      obtain ⟨k, rfl, hnext⟩ := hrest
      exact ⟨k, by simp [isWork]; omega, hnext a⟩
    | store r => exact ⟨k, by simpa [isWork] using hcount, hrest a⟩
    | token => exact ⟨k, by simpa [isWork] using hcount, hrest a⟩
    | clock => exact ⟨k, by simpa [isWork] using hcount, hrest a⟩

theorem WorksAtMost.idle {p rest : Program ω α} (h : p.WorksAtMost 0) {log : List (Answered ω)}
    (hleads : p.Leads log rest) : log.countP isWork = 0 ∧ ∀ next, rest ≠ .ask .work next := by
  obtain ⟨k, hcount, hrest⟩ := h.of_leads hleads
  refine ⟨by omega, ?_⟩
  rintro next rfl
  obtain ⟨j, hj, _⟩ := hrest
  omega

/-- The program comes to `a`, whatever it is answered. -/
def ComesTo (a : α) : Program ω α → Prop
  | .done b => b = a
  | .ask _ next => ∀ x, (next x).ComesTo a

theorem ComesTo.bind {p : Program ω α} {k : α → Program ω β} {a : α} {b : β} (hp : p.ComesTo a)
    (hk : (k a).ComesTo b) : (p.bind k).ComesTo b := by
  induction p with
  | done c =>
    cases hp
    exact hk
  | ask q next ih => exact fun x => ih x (hp x)

theorem ComesTo.of_leads {p rest : Program ω α} {a : α} (h : p.ComesTo a) {log : List (Answered ω)}
    (hleads : p.Leads log rest) : rest.ComesTo a := by
  induction hleads with
  | start => exact h
  | next _ x ih => exact ih x

/-- Whatever it is answered, what the program comes to goes with the answer that it got last. -/
def EndsOn (P : Option (Answered ω) → α → Prop) : Option (Answered ω) → Program ω α → Prop
  | last, .done a => P last a
  | _, .ask q next => ∀ x, (next x).EndsOn P (some ⟨q, x⟩)

theorem EndsOn.bind {P : Option (Answered ω) → β → Prop} {p : Program ω α} {k : α → Program ω β}
    {last : Option (Answered ω)} (h : p.EndsOn (fun last a => (k a).EndsOn P last) last) : (p.bind k).EndsOn P last := by
  induction p generalizing last with
  | done a => exact h
  | ask q next ih => exact fun x => ih x (h x)

/-- Wherever answers have led the program, it ends on the last of them or on one that it gets later. -/
theorem EndsOn.of_leads {P : Option (Answered ω) → α → Prop} {p rest : Program ω α} {last : Option (Answered ω)}
    {log : List (Answered ω)} (h : p.EndsOn P last) (hleads : p.Leads log rest) : rest.EndsOn P (log.getLast?.or last) := by
  induction hleads with
  | start => exact h
  | next _ x ih =>
    rw [List.getLast?_append]
    exact ih x

/-- The program lets no work run, and the first request that fails ends it in that failure. -/
def FailsFast : Program ω (Except Failure α) → Prop
  | .done _ => True
  | .ask (.store _) next => (∀ failure, next (.error failure) = .done (.error failure)) ∧ ∀ reply, (next reply).FailsFast
  | .ask .work _ => False
  | .ask .token next => ∀ t, (next t).FailsFast
  | .ask .clock next => ∀ ms, (next ms).FailsFast

theorem FailsFast.of_leads {p rest : Program ω (Except Failure α)} (h : p.FailsFast) {log : List (Answered ω)}
    (hleads : p.Leads log rest) : rest.FailsFast := by
  induction hleads with
  | start => exact h
  | @next log q next _ a ih =>
    cases q with
    | store r => exact ih.2 a
    | work => exact absurd ih id
    | token => exact ih a
    | clock => exact ih a

/-- A request that failed was the last one, and its failure is the outcome. -/
theorem FailsFast.ends {p : Program ω (Except Failure α)} (h : p.FailsFast) {r : Store.Request} {failure : Failure}
    {before after : List (Answered ω)} {outcome : Except Failure α}
    (hleads : p.Leads (before ++ ⟨.store r, .error failure⟩ :: after) (.done outcome)) :
    after = [] ∧ outcome = .error failure := by
  obtain ⟨between, hbefore, hafter⟩ := leads_append hleads
  obtain ⟨next, rfl, hrest⟩ := leads_cons hafter
  rw [(h.of_leads hbefore).1 failure] at hrest
  obtain ⟨hnone, hdone⟩ := leads_done hrest
  cases hdone
  exact ⟨hnone, rfl⟩

theorem FailsFast.worksAtMost {p : Program ω (Except Failure α)} (h : p.FailsFast) (n : Nat) : p.WorksAtMost n := by
  induction p with
  | done a => trivial
  | ask q next ih =>
    cases q with
    | store r => exact fun reply => ih reply (h.2 reply)
    | work => exact absurd h id
    | token => exact fun t => ih t (h t)
    | clock => exact fun ms => ih ms (h ms)

/-- The program comes to no success before it has asked the store. -/
def Consults : Program ω (Except Failure α) → Prop
  | .done outcome => ∀ a, outcome ≠ .ok a
  | .ask (.store _) _ => True
  | .ask .token next => ∀ t, (next t).Consults
  | .ask .clock next => ∀ ms, (next ms).Consults
  | .ask .work next => ∀ w, (next w).Consults

theorem Consults.asked {p : Program ω (Except Failure α)} (h : p.Consults) {log : List (Answered ω)} {a : α}
    (hleads : p.Leads log (.done (.ok a))) : ∃ r reply, (⟨.store r, reply⟩ : Answered ω) ∈ log := by
  induction p generalizing log with
  | done outcome =>
    cases (leads_done hleads).2
    exact absurd rfl (h a)
  | ask q next ih =>
    rcases leads_ask hleads with ⟨_, heq⟩ | ⟨x, more, rfl, hmore⟩
    · cases heq
    · have later : (next x).Consults → ∃ r reply, (⟨.store r, reply⟩ : Answered ω) ∈ ⟨q, x⟩ :: more := by
        intro hnext
        obtain ⟨r, reply, hmem⟩ := ih x hnext hmore
        exact ⟨r, reply, List.mem_cons_of_mem _ hmem⟩
      cases q with
      | store r => exact ⟨r, x, List.mem_cons_self⟩
      | token => exact later (h x)
      | clock => exact later (h x)
      | work => exact later (h x)

end Program

namespace Action
open Program

variable {ω α β : Type}

/-- How an action goes on after another one. -/
def onSuccess (f : α → Action ω β) : Except Failure α → Program ω (Except Failure β)
  | .ok a => (f a).run
  | .error failure => .done (.error failure)

theorem run_bind (x : Action ω α) (f : α → Action ω β) : (x >>= f).run = x.run.bind (onSuccess f) := by
  show Program.bind _ _ = Program.bind _ _
  congr
  funext outcome
  cases outcome <;> rfl

theorem run_return (x : Action ω α) (f : α → β) :
    (x >>= fun a => pure (f a)).run = x.run.bind fun outcome => .done (outcome.map f) := by
  rw [run_bind]
  congr
  funext outcome
  cases outcome <;> rfl

theorem failsFast_bind {x : Action ω α} {f : α → Action ω β} (hx : x.run.FailsFast)
    (hf : ∀ a, (f a).run.FailsFast) : (x >>= f).run.FailsFast := by
  rw [run_bind]
  have hgo : ∀ p : Program ω (Except Failure α), p.FailsFast → (p.bind (onSuccess f)).FailsFast := by
    intro p hp
    induction p with
    | done outcome =>
      cases outcome with
      | ok a => exact hf a
      | error failure => trivial
    | ask q next ih =>
      cases q with
      | store r =>
        refine ⟨?_, fun reply => ih reply (hp.2 reply)⟩
        intro failure
        show (next (.error failure)).bind (onSuccess f) = _
        rw [hp.1 failure]
        rfl
      | work => exact absurd hp id
      | token => exact fun t => ih t (hp t)
      | clock => exact fun ms => ih ms (hp ms)
  exact hgo x.run hx

theorem failsFast_call (r : Store.Request) : (call r : Action ω r.Reply).run.FailsFast :=
  ⟨fun _ => rfl, fun _ => trivial⟩

theorem consults_bind_left {x : Action ω α} (hx : x.run.Consults) (f : α → Action ω β) : (x >>= f).run.Consults := by
  rw [run_bind]
  have hgo : ∀ p : Program ω (Except Failure α), p.Consults → (p.bind (onSuccess f)).Consults := by
    intro p hp
    induction p with
    | done outcome =>
      cases outcome with
      | ok a => exact absurd rfl (hp a)
      | error failure => exact fun _ h => by cases h
    | ask q next ih =>
      cases q with
      | store r => trivial
      | token => exact fun t => ih t (hp t)
      | clock => exact fun ms => ih ms (hp ms)
      | work => exact fun w => ih w (hp w)
  exact hgo x.run hx

theorem consults_bind_right (x : Action ω α) {f : α → Action ω β} (hf : ∀ a, (f a).run.Consults) :
    (x >>= f).run.Consults := by
  rw [run_bind]
  induction x.run with
  | done outcome =>
    cases outcome with
    | ok a => exact hf a
    | error failure => exact fun _ h => by cases h
  | ask q next ih =>
    cases q with
    | store r => trivial
    | token => exact ih
    | clock => exact ih
    | work => exact ih

theorem consults_call (r : Store.Request) : (call r : Action ω r.Reply).run.Consults := trivial

end Action

end Coordination
