import Coordination.Proofs.Pool.Run
import Coordination.Proofs.Turn.World

/-! # What programs send

Some statements need no more of the programs of a pool than the requests that they send. What the memory fulfils at first,
what every such request keeps and what the clock keeps holds after every run.
-/
namespace Coordination
open Store (Memory)

variable {ι ω α β : Type} {P : Store.Request → Prop}

/-- Whatever it is answered, the program sends such requests only. -/
def Program.Sends (P : Store.Request → Prop) : Program ω α → Prop
  | .done _ => True
  | .ask (.store r) next => P r ∧ ∀ reply, (next reply).Sends P
  | .ask .token next => ∀ t, (next t).Sends P
  | .ask .clock next => ∀ ms, (next ms).Sends P
  | .ask .work next => ∀ w, (next w).Sends P

namespace Program

theorem Sends.next {q : Ask} {next : q.Answer ω → Program ω α} (h : (Program.ask q next).Sends P) (a : q.Answer ω) :
    (next a).Sends P := by
  cases q with
  | store r => exact h.2 a
  | token => exact h a
  | clock => exact h a
  | work => exact h a

theorem Sends.bind {p : Program ω α} {f : α → Program ω β} (hp : p.Sends P) (hf : ∀ a, (f a).Sends P) :
    (p.bind f).Sends P := by
  induction p with
  | done a => exact hf a
  | ask q next ih =>
    cases q with
    | store r => exact ⟨hp.1, fun reply => ih reply (hp.2 reply)⟩
    | token => exact fun t => ih t (hp t)
    | clock => exact fun ms => ih ms (hp ms)
    | work => exact fun w => ih w (hp w)

theorem Sends.mono {Q : Store.Request → Prop} {p : Program ω α} (h : p.Sends P) (himp : ∀ r, P r → Q r) : p.Sends Q := by
  induction p with
  | done a => trivial
  | ask q next ih =>
    cases q with
    | store r => exact ⟨himp r h.1, fun reply => ih reply (h.2 reply)⟩
    | token => exact fun t => ih t (h t)
    | clock => exact fun ms => ih ms (h ms)
    | work => exact fun w => ih w (h w)

theorem Sends.interpret {m : Type → Type} [Monad m] {answer : (q : Ask) → m (q.Answer ω)} {p : Program ω α}
    (h : p.Sends P) (Good : {α : Type} → m α → Prop) (hpure : ∀ {α : Type} (a : α), Good (pure a : m α))
    (hbind : ∀ {α β : Type} {x : m α} {f : α → m β}, Good x → (∀ a, Good (f a)) → Good (x >>= f))
    (hstore : ∀ r, P r → Good (answer (.store r))) (htoken : Good (answer .token)) (hclock : Good (answer .clock))
    (hwork : Good (answer .work)) : Good (p.interpret answer) := by
  induction p with
  | done a => exact hpure a
  | ask q next ih =>
    refine hbind ?_ fun a => ih a (h.next a)
    cases q with
    | store r => exact hstore r h.1
    | token => exact htoken
    | clock => exact hclock
    | work => exact hwork

theorem Sends.of_leads {p rest : Program ω α} (h : p.Sends P) {log : List (Answered ω)} (hleads : p.Leads log rest) :
    rest.Sends P := by
  induction hleads with
  | start => exact h
  | next _ a ih => exact ih.next a

end Program

namespace Action

theorem sends_bind {x : Action ω α} {f : α → Action ω β} (hx : x.run.Sends P) (hf : ∀ a, (f a).run.Sends P) :
    (x >>= f).run.Sends P := by
  rw [run_bind]
  apply hx.bind
  intro outcome
  cases outcome with
  | ok a => exact hf a
  | error failure => trivial

theorem sends_call {r : Store.Request} (h : P r) : (call r : Action ω r.Reply).run.Sends P := ⟨h, fun _ => trivial⟩

theorem sends_ofExcept (e : Except Failure α) : (ofExcept e : Action ω α).run.Sends P := by
  rw [run_ofExcept]
  trivial

/-- The action sends such requests only and lets no work run, and the first request that fails ends it in that failure. -/
structure Strict (P : Store.Request → Prop) (x : Action ω α) : Prop where
  sends : x.run.Sends P
  failsFast : x.run.FailsFast

theorem strict_pure (a : α) : Strict P (pure a : Action ω α) := ⟨trivial, trivial⟩

theorem strict_call {r : Store.Request} (h : P r) : Strict P (call r : Action ω r.Reply) := ⟨sends_call h, failsFast_call r⟩

theorem strict_token : Strict P (token : Action ω String) := ⟨fun _ => trivial, fun _ => trivial⟩

theorem strict_clock : Strict P (clock : Action ω Int) := ⟨fun _ => trivial, fun _ => trivial⟩

theorem strict_ofExcept (e : Except Failure α) : Strict P (ofExcept e : Action ω α) := by
  refine ⟨sends_ofExcept e, ?_⟩
  rw [run_ofExcept]
  trivial

theorem strict_bind {x : Action ω α} {f : α → Action ω β} (hx : Strict P x) (hf : ∀ a, Strict P (f a)) :
    Strict P (x >>= f) :=
  ⟨sends_bind hx.sends fun a => (hf a).sends, failsFast_bind hx.failsFast fun a => (hf a).failsFast⟩

theorem strict_map {x : Action ω α} (hx : Strict P x) (f : α → β) : Strict P (f <$> x) := by
  rw [map_eq_pure_bind]
  exact strict_bind hx fun _ => strict_pure _

theorem Strict.mono {Q : Store.Request → Prop} {x : Action ω α} (h : Strict P x) (himp : ∀ r, P r → Q r) : Strict Q x :=
  ⟨h.sends.mono himp, h.failsFast⟩

end Action

namespace Pool

/-- A condition on the memory that survives the requests of the programs and of others, and the passing of time. -/
theorem run_keeps {s : Traffic ι ω α} {I : Memory → Instant → Prop} (hsends : ∀ op, (s.program op).Sends P)
    (hserve : ∀ {m now r}, I m now → P r ∨ s.aside r = true → I (m.serve now r).2 now)
    (hlater : ∀ {m} {now later : Instant}, I m now → now.nanos ≤ later.nanos → I m later) {m : Memory} {now : Instant}
    (h : I m now) (moves : List (Move ι ω)) :
    I ((opened m now).run s moves).memory ((opened m now).run s moves).now := by
  refine (run_induction (P := fun p => I p.memory p.now ∧ p.AllStand fun _ rest => rest.Sends P) ?_
    ⟨h, allStand_opened m now⟩ moves).1
  rintro p p' ⟨hmemory, htasks⟩ hchange
  refine ⟨?_, hchange.allStand htasks hsends fun a _ _ hstood => hstood.next a⟩
  cases hchange with
  | none | call | begin => exact hmemory
  | @answer i op q next status a m' ht hgranted =>
    cases q with
    | store r =>
      have hkept := hserve (r := r) hmemory (.inl (htasks i _ ht).1)
      rwa [hgranted.2] at hkept
    | token => exact hgranted.2.2 ▸ hmemory
    | clock => exact hgranted.2.2 ▸ hmemory
    | work => exact hgranted.2.2 ▸ hmemory
  | @crash i op r next c m' ht hcrash =>
    have hkept := hserve (r := r) hmemory (.inl (htasks i _ ht).1)
    rwa [hcrash] at hkept
  | aside r hr => exact hserve hmemory (.inr hr)
  | advance d => exact hlater hmemory (Nat.le_add_right ..)

end Pool

end Coordination
