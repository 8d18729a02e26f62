import Coordination.Proofs.Pool.Alone
import Coordination.Proofs.Services.Subject

/-! # Subjects do not interfere

Errands about any subjects run side by side over one memory. Those about one subject come to what they come to when all
others are taken out of the run. Tokens may then be handed out under other names, which is seen in the owners of locks and
in the texts of claims only.
-/
namespace Coordination.Services
open Idempotency (claimText responseText IsClaim standingOf)

variable {ω : Type}

/-- Other names for tokens and owners. No two get the same one, and no owner stays no owner. -/
structure Renaming where
  apply : String → String
  injective : apply.Injective
  empty : apply "" = ""

def Renaming.identity : Renaming := ⟨id, Function.injective_id, rfl⟩

/-- Locks hold owners and claims hold tokens. The records of the other subjects hold neither. -/
def Subject.renaming (σ : Renaming) : Subject → Renaming
  | .lock _ | .idempotent _ => σ
  | .limited .. | .signIn _ => .identity

def Errand.rename (σ : Renaming) : Errand → Errand
  | .acquire resource owner ttl => .acquire resource (σ.apply owner) ttl
  | .giveBack resource owner => .giveBack resource (σ.apply owner)
  | .giveUp key token startedAt h => .giveUp key (σ.apply token) startedAt h
  | errand => errand

/-- The errands about a subject, with those that stand for them under other names. -/
def Subject.part (σ : Renaming) (s : Subject) : Part Errand where
  mine errand := errand.subject = s
  call := Errand.rename (s.renaming σ)
  rename := (s.renaming σ).apply

def RenamedText (σ : Renaming) (text text' : String) : Prop :=
  (∃ token ms, text = claimText token ms ∧ text' = claimText (σ.apply token) ms) ∨ ¬ IsClaim text ∧ text' = text

/-- The same outcome, but for the claim in a ticket. -/
def SameOutcome (σ : Renaming) : Except Failure (Answer ω) → Except Failure (Answer ω) → Prop
  | .ok (.stands (.acquired ticket)), outcome =>
    ∃ text, RenamedText σ ticket.sentinel text ∧ outcome = .ok (.stands (.acquired ⟨ticket.key, text⟩))
  | outcome, outcome' => outcome' = outcome

/-- A value in a record of a subject, and the one that is there under the other names. -/
def Subject.StandsFor (σ : Renaming) : Subject → String → String → Prop
  | .lock _, v, v' => v' = σ.apply v
  | .idempotent _, v, v' =>
    (∃ token ms, clockBounds.contains ms = true ∧ v = claimText token ms ∧ v' = claimText (σ.apply token) ms) ∨
      ∃ response, v = responseText response ∧ v' = v
  | .limited .., v, v' | .signIn _, v, v' => v' = v

section Values
variable (σ : Renaming)

theorem claimText_inj {token token' : String} {ms ms' : Int} (hms : clockBounds.contains ms = true)
    (hms' : clockBounds.contains ms' = true) (h : claimText token ms = claimText token' ms') : token = token' ∧ ms = ms' := by
  have hfits : (Idempotency.Record.inFlight ⟨token, ms⟩).Fits := hms
  have hfits' : (Idempotency.Record.inFlight ⟨token', ms'⟩).Fits := hms'
  cases (Idempotency.Record.encode_eq_iff hfits hfits').1 h
  exact ⟨rfl, rfl⟩

theorem Subject.faithful (s : Subject) : Faithful (s.StandsFor σ) := by
  intro v v' w w' hv hw
  cases s with
  | lock resource =>
    rw [hv, hw]
    exact σ.injective.eq_iff.symm
  | limited d value => rw [hv, hw]
  | signIn s => rw [hv, hw]
  | idempotent key =>
    rcases hv with ⟨token, ms, hms, rfl, rfl⟩ | ⟨response, rfl, rfl⟩
    · rcases hw with ⟨token', ms', hms', rfl, rfl⟩ | ⟨response, rfl, rfl⟩
      · constructor
        · intro heq
          obtain ⟨rfl, rfl⟩ := claimText_inj hms hms' heq
          rfl
        · intro heq
          obtain ⟨htoken, rfl⟩ := claimText_inj hms hms' heq
          rw [σ.injective htoken]
      · constructor
        · exact fun heq => absurd ⟨_, _, heq.symm⟩ (Idempotency.not_isClaim_responseText response)
        · exact fun heq => absurd ⟨_, _, heq.symm⟩ (Idempotency.not_isClaim_responseText response)
    · rcases hw with ⟨token', ms', hms', rfl, rfl⟩ | ⟨response', rfl, rfl⟩
      · constructor
        · exact fun heq => absurd ⟨_, _, heq⟩ (Idempotency.not_isClaim_responseText response)
        · exact fun heq => absurd ⟨_, _, heq⟩ (Idempotency.not_isClaim_responseText response)
      · rfl

theorem renamedText_identity (text : String) : RenamedText .identity text text := by
  by_cases h : IsClaim text
  · obtain ⟨token, ms, htext⟩ := h
    exact .inl ⟨token, ms, htext, htext⟩
  · exact .inr ⟨h, rfl⟩

theorem sameOutcome_identity (outcome : Except Failure (Answer ω)) : SameOutcome .identity outcome outcome := by
  unfold SameOutcome
  split
  · next ticket => exact ⟨ticket.sentinel, renamedText_identity _, rfl⟩
  · rfl

theorem sameOutcome_self {outcome : Except Failure (Answer ω)} (h : ∀ ticket, outcome ≠ .ok (.stands (.acquired ticket))) :
    SameOutcome σ outcome outcome := by
  unfold SameOutcome
  split
  · next ticket => exact absurd rfl (h ticket)
  · rfl

end Values

section Errands
variable (σ : Renaming)

/-- Actions that come to the same, but for what is asked under other names, still do with their results wrapped. -/
theorem alike_return {α : Type} {rename : String → String} {V : String → String → Prop} {B : Except Failure (Answer ω) →
    Except Failure (Answer ω) → Prop} {x x' : Action ω α} {f : α → Answer ω}
    (h : x.run.Alike rename V (fun o o' => B (o.map f) (o'.map f)) x'.run) :
    (x >>= fun a => pure (f a)).run.Alike rename V B (x' >>= fun a => pure (f a)).run := by
  rw [Action.run_return, Action.run_return]
  exact h.map fun _ _ hB => hB

theorem checkArguments_rename (owner : String) (ttl : Duration) :
    Lock.checkArguments (σ.apply owner) ttl = Lock.checkArguments owner ttl := by
  have hempty : (σ.apply owner).isEmpty = owner.isEmpty := by
    rw [Bool.eq_iff_iff, String.isEmpty_iff, String.isEmpty_iff]
    constructor
    · exact fun h => σ.injective (h.trans σ.empty.symm)
    · rintro rfl
      exact σ.empty
  simp only [Lock.checkArguments, hempty]

theorem acquire_alike (resource owner : String) (ttl : Duration) :
    (Lock.acquire (Lock.key resource) owner ttl : Action ω Bool).run.Alike σ.apply ((Subject.lock resource).StandsFor σ)
      (fun o o' => SameOutcome σ (o.map (Answer.whether (ω := ω))) (o'.map .whether))
      (Lock.acquire (Lock.key resource) (σ.apply owner) ttl).run := by
  have hsame : ∀ o : Except Failure Bool, SameOutcome σ (o.map (Answer.whether (ω := ω))) (o.map .whether) := by
    intro o
    cases o <;> rfl
  rw [Lock.run_acquire, Lock.run_acquire, checkArguments_rename]
  cases Lock.checkArguments owner ttl with
  | error failure => exact .done (hsame _)
  | ok _ => exact .setIfAbsent rfl fun reply => .done (hsame reply)

theorem giveBack_alike (resource owner : String) :
    (Lock.release (Lock.key resource) owner : Action ω Bool).run.Alike σ.apply ((Subject.lock resource).StandsFor σ)
      (fun o o' => SameOutcome σ (o.map (Answer.whether (ω := ω))) (o'.map .whether))
      (Lock.release (Lock.key resource) (σ.apply owner)).run := by
  refine .compareAndDelete rfl fun reply => .done ?_
  cases reply <;> rfl

theorem runExclusive_alike (resource : String) (ttl : Duration) :
    (Lock.runExclusive resource ttl (.once .work) : Action ω (Option ω)).run.Alike σ.apply
      ((Subject.lock resource).StandsFor σ) (fun o o' => SameOutcome σ (o.map Answer.ran) (o'.map .ran))
      (Lock.runExclusive resource ttl (.once .work)).run := by
  rw [Lock.run_runExclusive]
  refine .token fun owner => ?_
  rw [checkArguments_rename]
  cases Lock.checkArguments owner ttl with
  | error failure => exact .done rfl
  | ok _ =>
    refine .setIfAbsent rfl fun reply => ?_
    rcases reply with failure | _ | _
    · exact .done rfl
    · exact .done rfl
    · exact .work fun w => .compareAndDelete rfl fun _ => .done rfl

theorem standingOf_eq {key v v' : String} (h : (Subject.idempotent key).StandsFor σ v v') : standingOf v' = standingOf v := by
  rcases h with ⟨token, ms, hms, rfl, rfl⟩ | ⟨response, rfl, rfl⟩
  · rw [Idempotency.standingOf_claimText hms, Idempotency.standingOf_claimText hms]
  · rfl

theorem claim_alike (limits : Idempotency.Limits) (key : String) :
    (limits.check key : Action ω Idempotency.Standing).run.Alike σ.apply ((Subject.idempotent key).StandsFor σ)
      (fun o o' => SameOutcome σ (o.map (Answer.stands (ω := ω))) (o'.map .stands)) (limits.check key).run := by
  rw [Idempotency.run_check]
  cases Idempotency.checkKey key with
  | error failure => exact .done rfl
  | ok _ =>
    refine .token fun token => .clock fun ms hms => .setIfAbsent (.inl ⟨token, ms, hms, rfl, rfl⟩) fun reply => ?_
    rcases reply with failure | _ | _
    · exact .done rfl
    · refine .get fun found found' hfound => .done ?_
      have hseen : Idempotency.seen (.ok found') = Idempotency.seen (.ok found) := by
        cases hfound with
        | none => rfl
        | some h => exact standingOf_eq σ h
      rw [hseen]
      refine sameOutcome_self σ fun ticket heq => ?_
      cases hstanding : Idempotency.seen (.ok found) with
      | error failure => rw [hstanding] at heq; cases heq
      | ok standing =>
        rw [hstanding] at heq
        cases heq
        exact Idempotency.seen_ne_acquired _ ticket hstanding
    · exact .done ⟨_, .inl ⟨token, ms, rfl, rfl⟩, rfl⟩

theorem inspect_alike (key : String) :
    (Idempotency.inspect key : Action ω (Option Idempotency.Standing)).run.Alike σ.apply
      ((Subject.idempotent key).StandsFor σ) (fun o o' => SameOutcome σ (o.map (Answer.found (ω := ω))) (o'.map .found))
      (Idempotency.inspect key).run := by
  rw [Idempotency.run_inspect]
  cases Idempotency.checkKey key with
  | error failure => exact .done rfl
  | ok _ =>
    refine .get fun found found' hfound => ?_
    cases hfound with
    | none => exact .done rfl
    | some h =>
      dsimp only
      rw [standingOf_eq σ h]
      refine .done ?_
      cases standingOf _ <;> rfl

theorem complete_alike (limits : Idempotency.Limits) (key : String) (response : Idempotency.CachedResponse) :
    (limits.complete key response : Action ω Idempotency.Completion).run.Alike σ.apply
      ((Subject.idempotent key).StandsFor σ)
      (fun o o' => SameOutcome σ (o.map (Answer.completed (ω := ω))) (o'.map .completed)) (limits.complete key response).run := by
  rw [Idempotency.run_complete]
  cases Idempotency.checkKey key with
  | error failure => exact .done rfl
  | ok _ =>
    dsimp only
    split
    · exact .done rfl
    · refine .set (.inr ⟨response, rfl, rfl⟩) fun reply => ?_
      cases reply <;> exact .done rfl

theorem giveUp_alike (key token : String) {startedAt : Int} (h : clockBounds.contains startedAt = true) :
    (Idempotency.release ⟨key, claimText token startedAt⟩ : Action ω Bool).run.Alike σ.apply
      ((Subject.idempotent key).StandsFor σ)
      (fun o o' => SameOutcome σ (o.map (Answer.whether (ω := ω))) (o'.map .whether))
      (Idempotency.release ⟨key, claimText (σ.apply token) startedAt⟩).run := by
  refine .compareAndDelete (.inl ⟨token, startedAt, h, rfl, rfl⟩) fun reply => .done ?_
  cases reply <;> rfl

def Errand.program (errand : Errand) : Program ω (Except Failure (Answer ω)) := errand.operation.action.run

/-- An errand under the other names asks what the errand does, and comes to the same. -/
theorem Errand.alike (errand : Errand) :
    (errand.program (ω := ω)).Alike (errand.subject.renaming σ).apply (errand.subject.StandsFor σ)
      (SameOutcome (errand.subject.renaming σ)) (errand.rename (errand.subject.renaming σ)).program := by
  cases errand with
  | acquire resource owner ttl => exact alike_return (acquire_alike σ resource owner ttl)
  | giveBack resource owner => exact alike_return (giveBack_alike σ resource owner)
  | runExclusive resource ttl => exact alike_return (runExclusive_alike σ resource ttl)
  | claim limits key => exact alike_return (claim_alike σ limits key)
  | inspect key => exact alike_return (inspect_alike σ key)
  | complete limits key response => exact alike_return (complete_alike σ limits key response)
  | giveUp key token startedAt h => exact alike_return (giveUp_alike σ key token h)
  | count rules d value => exact Program.alike_refl (fun _ _ => .rfl) sameOutcome_identity _
  | countAt rules d value nowMs => exact Program.alike_refl (fun _ _ => .rfl) sameOutcome_identity _
  | signIn call h => exact Program.alike_refl (fun _ _ => .rfl) sameOutcome_identity _

end Errands

theorem Subject.separate (σ : Renaming) (s : Subject) :
    (s.part σ).Separate (Errand.program (ω := ω)) s.Owns (s.StandsFor σ) (SameOutcome (s.renaming σ)) where
  sends errand := by
    refine errand.operation.sends.mono fun r hr => ?_
    obtain ⟨key, hkey, howns⟩ := errand.owns_of_sent hr
    refine ⟨key, hkey, ?_⟩
    simp only [part, decide_eq_true_eq]
    constructor
    · rintro rfl
      exact howns
    · exact fun hs => howns.unique hs
  alike errand hmine := by
    obtain rfl : errand.subject = s := of_decide_eq_true hmine
    exact errand.alike σ
  faithful := s.faithful σ
  injective := (s.renaming σ).injective

/-- Errands about any subjects in any order, over a memory that was empty: those about one subject come as far, and to the
same, as on their own, with tokens handed out under any other names. -/
theorem subjects_do_not_interfere (σ : Renaming) (s : Subject) (start : Instant) (moves : List (Move Errand ω)) :
    let traffic : Traffic Errand ω (Except Failure (Answer ω)) := .free Errand.program
    let begun := Pool.opened .empty start
    List.Forall₂ (fun task task' => task'.op = task.op.rename (s.renaming σ) ∧ task'.status = task.status ∧
        Option.Rel (SameOutcome (s.renaming σ)) task.rest.result? task'.rest.result?)
      ((begun.run traffic moves).tasks.filter fun task => task.op.subject = s)
      (begun.run traffic ((s.part σ).alone traffic begun moves)).tasks :=
  (Pool.alone_twin (s.separate σ) start moves).imp fun _ _ h => ⟨h.op, h.status, h.rest.result?⟩

end Coordination.Services
