import Coordination.Store.Request

/-! # Programs over a store

A coordination service is a program that asks: it sends a request to the store, draws a token, reads the wall
clock or lets its caller's work run, and goes on with the answer. What answers is left open: a store in
memory, a connection, or any adversary that interleaves the questions of several programs.
-/
namespace Coordination

/-- What a program may ask of the world around it. -/
inductive Ask where
  | store (r : Store.Request)
  /-- A token that was never handed out before. -/
  | token
  /-- The wall clock, in milliseconds since the epoch. -/
  | clock
  /-- The work that the program runs on behalf of its caller. -/
  | work
deriving DecidableEq, Repr

/-- The answer to a question; work comes back with an `ω`. -/
abbrev Ask.Answer (ω : Type) : Ask → Type
  | .store r => Except Failure r.Reply
  | .token => String
  | .clock => Int
  | .work => ω

inductive Program (ω α : Type) : Type where
  | done (a : α)
  | ask (q : Ask) (next : q.Answer ω → Program ω α)

namespace Program

variable {ω α β : Type}

def bind : Program ω α → (α → Program ω β) → Program ω β
  | .done a, f => f a
  | .ask q next, f => .ask q fun answer => (next answer).bind f

instance : Monad (Program ω) where
  pure := .done
  bind := bind

theorem bind_done (p : Program ω α) : p.bind .done = p := by
  induction p with
  | done a => rfl
  | ask q next ih => simp only [bind, ih]

theorem bind_assoc {γ : Type} (p : Program ω α) (f : α → Program ω β) (g : β → Program ω γ) :
    (p.bind f).bind g = p.bind fun a => (f a).bind g := by
  induction p with
  | done a => rfl
  | ask q next ih => simp only [bind, ih]

instance : LawfulMonad (Program ω) :=
  LawfulMonad.mk' _ bind_done (fun _ _ => rfl) bind_assoc

def once (q : Ask) : Program ω (q.Answer ω) := .ask q .done

/-- Runs a program with an answer for each of its questions. -/
def interpret {m : Type → Type} [Monad m] (answer : (q : Ask) → m (q.Answer ω)) : Program ω α → m α
  | .done a => pure a
  | .ask q next => do
    let a ← answer q
    (next a).interpret answer

theorem interpret_bind {m : Type → Type} [Monad m] [LawfulMonad m] (answer : (q : Ask) → m (q.Answer ω))
    (p : Program ω α) (f : α → Program ω β) :
    (p.bind f).interpret answer = p.interpret answer >>= fun a => (f a).interpret answer := by
  induction p with
  | done a => simp [bind, interpret]
  | ask q next ih => simp [bind, interpret, ih]

end Program

/-- A program that may fail. -/
abbrev Action (ω α : Type) := ExceptT Failure (Program ω) α

namespace Action

variable {ω : Type}

/-- Sends a request; a failure of the store ends the program. -/
def call (r : Store.Request) : Action ω r.Reply := ExceptT.mk (Program.once (.store r))

def token : Action ω String := ExceptT.lift (Program.once .token)

def clock : Action ω Int := ExceptT.lift (Program.once .clock)

/-- Runs a program that cannot fail. -/
def perform {α : Type} (p : Program ω α) : Action ω α := ExceptT.lift p

/-- The outcome of an action, a failure of it included. -/
def outcome {α : Type} (a : Action ω α) : Action ω (Except Failure α) := ExceptT.lift (ExceptT.run a)

/-- A result that was computed without asking. -/
def ofExcept {α : Type} (e : Except Failure α) : Action ω α := ExceptT.mk (pure e)

end Action

end Coordination
