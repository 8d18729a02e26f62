import Coordination.Program
import Coordination.Proofs.Store.Cell

/-! # Programs one after another

A turn lets one program run to its end at one instant, with nobody else at the store. Any of its requests may fail on
the way without having taken effect. What a program ensures, whatever fails, is found question by question.
-/
namespace Coordination
open Store (Cell Crash Memory)

/-- Whatever it is answered, the program leaves a key as it is. -/
def Program.Avoids {ω α : Type} (key : String) : Program ω α → Prop
  | .done _ => True
  | .ask q next => (∀ r, q = .store r → r.leaves key = true) ∧ ∀ a, (next a).Avoids key

theorem Program.Avoids.bind {ω α β : Type} {key : String} {p : Program ω α} {f : α → Program ω β} (hp : p.Avoids key)
    (hf : ∀ a, (f a).Avoids key) : (p.bind f).Avoids key := by
  induction p with
  | done a => exact hf a
  | ask q next ih => exact ⟨hp.1, fun a => ih a (hp.2 a)⟩

/-- What a program finds besides the store. -/
structure Turn where
  now : Instant
  token : String
  wallMs : Int
deriving DecidableEq, Repr

/-- The failures in which the next requests end without having taken effect. A request for which there is none is
served, and so are those past the end. -/
abbrev Faults := List (Option Failure)

namespace Turn

variable {α β : Type}

def answer (t : Turn) : (q : Ask) → ExceptT Crash (StateM (Memory × Faults)) (q.Answer Unit)
  | .store r => ExceptT.mk fun (m, faults) =>
    match faults.headD none with
    | some failure => (.ok (.error failure), m, faults.tail)
    | none => ((m.serve t.now r).1, (m.serve t.now r).2, faults.tail)
  | .token => pure t.token
  | .clock => pure t.wallMs
  | .work => pure ()

/-- Lets a program run to its end: what it comes to, the memory after it and the faults that are left. -/
def play (t : Turn) (p : Program Unit α) (m : Memory) (faults : Faults) : Except Crash α × Memory × Faults :=
  (p.interpret t.answer).run.run (m, faults)

/-- What the program comes to and the memory after it fulfil the condition, whatever fails. -/
def Ensures (t : Turn) (p : Program Unit α) (m : Memory) (post : Except Crash α → Memory → Prop) : Prop :=
  ∀ faults, post (t.play p m faults).1 (t.play p m faults).2.1

theorem run_bind {σ : Type} (x : ExceptT Crash (StateM σ) α) (f : α → ExceptT Crash (StateM σ) β) (s : σ) :
    (x >>= f).run.run s = match x.run.run s with
      | (.ok a, s') => (f a).run.run s'
      | (.error c, s') => (.error c, s') := by
  rw [ExceptT.run_bind, StateT.run_bind]
  show (match x.run.run s with | (outcome, s') => _) = _
  rcases x.run.run s with ⟨_ | a, s'⟩
  · rfl
  · rfl

section Questions
variable (t : Turn) (m : Memory) (faults : Faults)

@[simp] theorem play_done (a : α) : t.play (.done a) m faults = (.ok a, m, faults) := rfl

@[simp] theorem play_token (next : String → Program Unit α) :
    t.play (.ask .token next) m faults = t.play (next t.token) m faults := rfl

@[simp] theorem play_clock (next : Int → Program Unit α) :
    t.play (.ask .clock next) m faults = t.play (next t.wallMs) m faults := rfl

theorem play_bind (p : Program Unit α) (f : α → Program Unit β) :
    t.play (p.bind f) m faults = match t.play p m faults with
      | (.ok a, m', rest) => t.play (f a) m' rest
      | (.error c, m', rest) => (.error c, m', rest) := by
  unfold play
  rw [Program.interpret_bind, run_bind]
  rcases (p.interpret t.answer).run.run (m, faults) with ⟨_ | a, m', rest⟩
  · rfl
  · rfl

theorem run_answer_store (r : Store.Request) :
    (t.answer (.store r)).run.run (m, faults) = match faults.headD none with
      | some failure => (.ok (.error failure), m, faults.tail)
      | none => ((m.serve t.now r).1, (m.serve t.now r).2, faults.tail) := rfl

theorem play_store {r : Store.Request} (next : (Ask.store r).Answer Unit → Program Unit α) :
    t.play (.ask (.store r) next) m faults = match faults.headD none with
      | some failure => t.play (next (.error failure)) m faults.tail
      | none =>
        match m.serve t.now r with
        | (.ok reply, m') => t.play (next reply) m' faults.tail
        | (.error c, m') => (.error c, m', faults.tail) := by
  unfold play
  rw [Program.interpret, run_bind, run_answer_store]
  cases faults.headD none with
  | some failure => rfl
  | none =>
    rcases m.serve t.now r with ⟨_ | reply, m'⟩
    · rfl
    · rfl

theorem play_map (f : α → β) (p : Program Unit α) :
    t.play (f <$> p) m faults = ((t.play p m faults).1.map f, (t.play p m faults).2) := by
  show t.play (p.bind fun a => .done (f a)) m faults = _
  rw [play_bind]
  rcases t.play p m faults with ⟨_ | a, m', rest⟩
  · rfl
  · rfl

end Questions

theorem play_served {t : Turn} {m m' : Memory} {r : Store.Request} {next : (Ask.store r).Answer Unit → Program Unit α}
    {reply : Except Failure r.Reply} (h : m.serve t.now r = (.ok reply, m')) :
    t.play (.ask (.store r) next) m [] = t.play (next reply) m' [] := by
  rw [play_store]
  simp only [List.headD_nil, h, List.tail_nil]

theorem play_get (t : Turn) (m : Memory) (key : String) (next : (Ask.store (.get key)).Answer Unit → Program Unit α) :
    t.play (.ask (.store (.get key)) next) m [] =
      t.play (next (.ok ((m.visible? t.now key).map Store.Entry.value))) (m.serve t.now (.get key)).2 [] :=
  play_served (Prod.ext (m.serve_get t.now key) rfl)

theorem play_crashed {t : Turn} {m m' : Memory} {r : Store.Request} {next : (Ask.store r).Answer Unit → Program Unit α}
    {c : Crash} (h : m.serve t.now r = (.error c, m')) : t.play (.ask (.store r) next) m [] = (.error c, m', []) := by
  rw [play_store]
  simp only [List.headD_nil, h, List.tail_nil]

section Ensures
variable {t : Turn} {m : Memory} {post : Except Crash α → Memory → Prop}

theorem ensures_done {a : α} (h : post (.ok a) m) : t.Ensures (.done a) m post := fun _ => h

theorem ensures_store {r : Store.Request} {next : (Ask.store r).Answer Unit → Program Unit α}
    (failed : ∀ failure, t.Ensures (next (.error failure)) m post)
    (served : ∀ reply m', m.serve t.now r = (.ok reply, m') → t.Ensures (next reply) m' post)
    (crashed : ∀ c m', m.serve t.now r = (.error c, m') → post (.error c) m') :
    t.Ensures (.ask (.store r) next) m post := by
  intro faults
  rw [play_store]
  cases faults.headD none with
  | some failure => exact failed failure faults.tail
  | none =>
    cases hserve : m.serve t.now r with
    | mk outcome m' =>
      cases outcome with
      | ok reply => exact served reply m' hserve faults.tail
      | error c => exact crashed c m' hserve

theorem Ensures.bind {p : Program Unit α} {f : α → Program Unit β} {post' : Except Crash β → Memory → Prop}
    (h : t.Ensures p m post) (hf : ∀ a m', post (.ok a) m' → t.Ensures (f a) m' post')
    (hcrash : ∀ c m', post (.error c) m' → post' (.error c) m') : t.Ensures (p.bind f) m post' := by
  intro faults
  have hp := h faults
  rw [play_bind]
  revert hp
  rcases t.play p m faults with ⟨c | a, m', rest⟩
  · exact fun hp => hcrash c m' hp
  · exact fun hp => hf a m' hp rest

theorem Ensures.mono {p : Program Unit α} {post' : Except Crash α → Memory → Prop} (h : t.Ensures p m post)
    (himp : ∀ outcome m', post outcome m' → post' outcome m') : t.Ensures p m post' :=
  fun faults => himp _ _ (h faults)

theorem Ensures.and {p : Program Unit α} {post' : Except Crash α → Memory → Prop} (h : t.Ensures p m post)
    (h' : t.Ensures p m post') : t.Ensures p m fun outcome m' => post outcome m' ∧ post' outcome m' :=
  fun faults => ⟨h faults, h' faults⟩

theorem ensures_shows {p : Program Unit α} {key : String} {c : Cell} (hp : p.Avoids key) (h : m.Shows t.now key c) :
    t.Ensures p m fun _ m' => m'.Shows t.now key c := by
  induction p generalizing m with
  | done a => exact ensures_done h
  | ask q next ih =>
    obtain ⟨hq, hnext⟩ := hp
    cases q with
    | token => exact fun faults => ih _ (hnext _) h faults
    | clock => exact fun faults => ih _ (hnext _) h faults
    | work => exact fun faults => ih _ (hnext _) h faults
    | store r =>
      refine ensures_store (fun failure => ih _ (hnext _) h) ?_ ?_
      · intro reply m' hserve
        exact ih _ (hnext _) (h.kept (hq r rfl) hserve)
      · intro c m' hserve
        exact h.kept (hq r rfl) hserve

end Ensures

end Turn

end Coordination
