import Coordination.Proofs.Pool.Requests
import Coordination.Proofs.Store.Cell

/-! # Programs alike

Two programs are alike if they ask the same up to a renaming of tokens and up to values that stand for each other, whatever
they are answered, and come to results that stand for each other. A store that holds values of which one stands for the
other cannot tell alike programs apart, provided that values are equal exactly where those are that they stand for.
-/
namespace Coordination
open Store (Cell Crash Entry Memory)

variable {ω α β : Type}

namespace Program

/-- The second program asks what the first does, with tokens renamed and with values in place of the values that they stand
for. -/
inductive Alike (rename : String → String) (V : String → String → Prop) (A : α → α → Prop) :
    Program ω α → Program ω α → Prop
  | done {a a' : α} (h : A a a') : Alike rename V A (.done a) (.done a')
  | token {next next' : String → Program ω α} (h : ∀ t, Alike rename V A (next t) (next' (rename t))) :
    Alike rename V A (.ask .token next) (.ask .token next')
  | clock {next next' : Int → Program ω α} (h : ∀ ms, clockBounds.contains ms = true → Alike rename V A (next ms) (next' ms)) :
    Alike rename V A (.ask .clock next) (.ask .clock next')
  | work {next next' : ω → Program ω α} (h : ∀ w, Alike rename V A (next w) (next' w)) :
    Alike rename V A (.ask .work next) (.ask .work next')
  | setIfAbsent {key v v' : String} {ttl : Duration} {next next' : Except Failure Bool → Program ω α} (hv : V v v')
    (h : ∀ reply, Alike rename V A (next reply) (next' reply)) :
    Alike rename V A (.ask (.store (.setIfAbsent key v ttl)) next) (.ask (.store (.setIfAbsent key v' ttl)) next')
  | set {key v v' : String} {ttl : Option Duration} {next next' : Except Failure Unit → Program ω α} (hv : V v v')
    (h : ∀ reply, Alike rename V A (next reply) (next' reply)) :
    Alike rename V A (.ask (.store (.set key v ttl)) next) (.ask (.store (.set key v' ttl)) next')
  | get {key : String} {next next' : Except Failure (Option String) → Program ω α}
    (h : ∀ found found', Option.Rel V found found' → Alike rename V A (next (.ok found)) (next' (.ok found'))) :
    Alike rename V A (.ask (.store (.get key)) next) (.ask (.store (.get key)) next')
  | compareAndDelete {key v v' : String} {next next' : Except Failure Bool → Program ω α} (hv : V v v')
    (h : ∀ reply, Alike rename V A (next reply) (next' reply)) :
    Alike rename V A (.ask (.store (.compareAndDelete key v)) next) (.ask (.store (.compareAndDelete key v')) next')
  /-- A request may be anything where a value stands for no value but itself. -/
  | same {r : Store.Request} {next next' : Except Failure r.Reply → Program ω α} (hV : ∀ v v', V v v' ↔ v' = v)
    (h : ∀ reply, Alike rename V A (next reply) (next' reply)) :
    Alike rename V A (.ask (.store r) next) (.ask (.store r) next')

variable {rename : String → String} {V : String → String → Prop} {A : α → α → Prop}

theorem alike_refl (hV : ∀ v v', V v v' ↔ v' = v) (hA : ∀ a, A a a) (p : Program ω α) : Alike id V A p p := by
  induction p with
  | done a => exact .done (hA a)
  | ask q next ih =>
    cases q with
    | store r => exact .same hV ih
    | token => exact .token ih
    | clock => exact .clock fun ms _ => ih ms
    | work => exact .work ih

theorem Alike.map {B : β → β → Prop} {p p' : Program ω α} {f : α → β} (h : Alike rename V A p p')
    (hf : ∀ a a', A a a' → B (f a) (f a')) :
    Alike rename V B (p.bind fun a => .done (f a)) (p'.bind fun a => .done (f a)) := by
  induction h with
  | done h => exact .done (hf _ _ h)
  | token _ ih => exact .token ih
  | clock _ ih => exact .clock ih
  | work _ ih => exact .work ih
  | setIfAbsent hv _ ih => exact .setIfAbsent hv ih
  | set hv _ ih => exact .set hv ih
  | get _ ih => exact .get ih
  | compareAndDelete hv _ ih => exact .compareAndDelete hv ih
  | same hV _ ih => exact .same hV ih

theorem Alike.result? {p p' : Program ω α} (h : Alike rename V A p p') : Option.Rel A p.result? p'.result? := by
  cases h with
  | done h => exact .some h
  | _ => exact .none

end Program

/-- Values are equal exactly where those are that they stand for. -/
def Faithful (V : String → String → Prop) : Prop := ∀ {v v' w w'}, V v v' → V w w' → (v = w ↔ v' = w')

namespace Store

/-- The second cell holds what the first does, with a value in place of the one that it stands for. -/
def Cell.Alike (V : String → String → Prop) : Cell → Cell → Prop :=
  Option.Rel fun e e' => V e.value e'.value ∧ e'.expiresAt = e.expiresAt

namespace Cell.Alike
variable {V : String → String → Prop} {c c' : Cell} {now : Instant} {key v v' : String}

theorem live (h : c.Alike V c') (now : Instant) : Cell.Alike V (c.live now) (c'.live now) := by
  cases h with
  | none => exact .none
  | @some e e' h =>
    have hsame : e'.isLive now = e.isLive now := by simp only [Entry.isLive, h.2]
    rw [live_some, live_some, hsame]
    split
    · exact .some h
    · exact .none

theorem eq (hV : ∀ v v', V v v' ↔ v' = v) (h : c.Alike V c') : c' = c := by
  cases h with
  | none => rfl
  | @some e e' h =>
    obtain ⟨value, expiresAt⟩ := e
    obtain ⟨value', expiresAt'⟩ := e'
    obtain ⟨hvalue, rfl⟩ := h
    obtain rfl := (hV _ _).1 hvalue
    rfl

theorem refl (hV : ∀ v v', V v v' ↔ v' = v) (c : Cell) : c.Alike V c := by
  cases c with
  | none => exact .none
  | some e => exact .some ⟨(hV _ _).2 rfl, rfl⟩

theorem serve_setIfAbsent (h : c.Alike V c') (hv : V v v') (now : Instant) (key : String) (ttl : Duration) :
    (c'.serve now (.setIfAbsent key v' ttl)).1 = (c.serve now (.setIfAbsent key v ttl)).1 ∧
      (c.serve now (.setIfAbsent key v ttl)).2.Alike V (c'.serve now (.setIfAbsent key v' ttl)).2 := by
  unfold Cell.serve
  rw [show (Request.setIfAbsent key v' ttl).checkTtl = (Request.setIfAbsent key v ttl).checkTtl from rfl]
  cases (Request.setIfAbsent key v ttl).checkTtl with
  | error failure => exact ⟨rfl, h⟩
  | ok _ =>
    have hlive := h.live now
    simp only [perform, setIfAbsent]
    generalize c.live now = found, c'.live now = found' at hlive
    cases hlive with
    | some _ => exact ⟨rfl, h⟩
    | none =>
      cases Memory.deadline now (some ttl) with
      | error crash => exact ⟨rfl, h⟩
      | ok at? => exact ⟨rfl, .some ⟨hv, rfl⟩⟩

theorem serve_set (h : c.Alike V c') (hv : V v v') (now : Instant) (key : String) (ttl : Option Duration) :
    (c'.serve now (.set key v' ttl)).1 = (c.serve now (.set key v ttl)).1 ∧
      (c.serve now (.set key v ttl)).2.Alike V (c'.serve now (.set key v' ttl)).2 := by
  unfold Cell.serve
  rw [show (Request.set key v' ttl).checkTtl = (Request.set key v ttl).checkTtl from rfl]
  cases (Request.set key v ttl).checkTtl with
  | error failure => exact ⟨rfl, h⟩
  | ok _ =>
    simp only [perform, set]
    cases Memory.deadline now ttl with
    | error crash => exact ⟨rfl, h⟩
    | ok at? => exact ⟨rfl, .some ⟨hv, rfl⟩⟩

theorem serve_get (h : c.Alike V c') (now : Instant) (key : String) :
    ∃ found found', c.serve now (.get key) = (.ok (.ok found), c) ∧ c'.serve now (.get key) = (.ok (.ok found'), c') ∧
      Option.Rel V found found' := by
  refine ⟨_, _, rfl, rfl, ?_⟩
  have hlive := h.live now
  generalize c.live now = found, c'.live now = found' at hlive
  cases hlive with
  | some h => exact .some h.1
  | none => exact .none

theorem serve_compareAndDelete (hfaithful : Faithful V) (h : c.Alike V c') (hv : V v v') (now : Instant) (key : String) :
    (c'.serve now (.compareAndDelete key v')).1 = (c.serve now (.compareAndDelete key v)).1 ∧
      (c.serve now (.compareAndDelete key v)).2.Alike V (c'.serve now (.compareAndDelete key v')).2 := by
  have hsame : (c'.live now).map Entry.value = some v' ↔ (c.live now).map Entry.value = some v := by
    have hlive := h.live now
    generalize c.live now = found, c'.live now = found' at hlive
    cases hlive with
    | none => simp
    | some h => simpa using (hfaithful h.1 hv).symm
  rw [serve_compareAndDelete_eq, serve_compareAndDelete_eq]
  by_cases heq : (c.live now).map Entry.value = some v
  · rw [if_pos heq, if_pos (hsame.2 heq)]
    exact ⟨rfl, .none⟩
  · rw [if_neg heq, if_neg (mt hsame.1 heq)]
    exact ⟨rfl, h⟩

end Cell.Alike

end Store

section Answers
variable {rename : String → String} {V : String → String → Prop} {A : α → α → Prop}

/-- What is served to programs that go on as `next` and `next'`: both crash, or both go on alike, over alike cells. -/
inductive ServedAlike (rename : String → String) (V : String → String → Prop) (A : α → α → Prop) {ρ ρ' : Type}
    (next : ρ → Program ω α) (next' : ρ' → Program ω α) : Except Crash ρ × Cell → Except Crash ρ' × Cell → Prop
  | crashed {crash : Crash} {c c' : Cell} (hc : c.Alike V c') :
    ServedAlike rename V A next next' (.error crash, c) (.error crash, c')
  | answered {reply : ρ} {reply' : ρ'} {c c' : Cell} (hc : c.Alike V c')
    (h : (next reply).Alike rename V A (next' reply')) : ServedAlike rename V A next next' (.ok reply, c) (.ok reply', c')

theorem servedAlike_of_eq {ρ : Type} {next next' : ρ → Program ω α} (h : ∀ reply, (next reply).Alike rename V A (next' reply))
    {served served' : Except Crash ρ × Cell} (hout : served'.1 = served.1 ∧ served.2.Alike V served'.2) :
    ServedAlike rename V A next next' served served' := by
  obtain ⟨outcome, c⟩ := served
  obtain ⟨outcome', c'⟩ := served'
  obtain ⟨hsame, hc⟩ := hout
  cases hsame
  cases outcome with
  | error crash => exact .crashed hc
  | ok reply => exact .answered hc (h reply)

theorem Program.Alike.served (hfaithful : Faithful V) {r r' : Store.Request} {next : Except Failure r.Reply → Program ω α}
    {next' : Except Failure r'.Reply → Program ω α}
    (h : (Program.ask (.store r) next).Alike rename V A (.ask (.store r') next')) {c c' : Cell} (hc : c.Alike V c')
    (now : Instant) : r'.key? = r.key? ∧ ServedAlike rename V A next next' (c.serve now r) (c'.serve now r') := by
  cases h with
  | same hV h =>
    obtain rfl := hc.eq hV
    exact ⟨rfl, servedAlike_of_eq h ⟨rfl, .refl hV _⟩⟩
  | setIfAbsent hv h => exact ⟨rfl, servedAlike_of_eq h (hc.serve_setIfAbsent hv now _ _)⟩
  | set hv h => exact ⟨rfl, servedAlike_of_eq h (hc.serve_set hv now _ _)⟩
  | compareAndDelete hv h => exact ⟨rfl, servedAlike_of_eq h (hc.serve_compareAndDelete hfaithful hv now _)⟩
  | @get key _ _ h =>
    obtain ⟨found, found', hs, hs', hrel⟩ := hc.serve_get now key
    rw [hs, hs']
    exact ⟨rfl, .answered hc (h found found' hrel)⟩

end Answers

end Coordination
