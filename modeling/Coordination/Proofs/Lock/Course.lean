import Coordination.Lock
import Coordination.Proofs.Pool.Requests

/-! # The course of a lock

Taking a lock and giving it back ask the store once each. Work under a lock begins once the lock is taken, and whatever comes
of it the lock is given back after that; what the store answers then is dropped.
-/
namespace Coordination.Lock

variable {ω α : Type}

theorem run_acquire (key owner : String) (ttl : Duration) :
    (acquire key owner ttl : Action ω Bool).run = match checkArguments owner ttl with
      | .ok _ => .ask (.store (.setIfAbsent key owner ttl)) .done
      | .error failure => .done (.error failure) := by
  unfold acquire
  cases checkArguments owner ttl with
  | error failure => rfl
  | ok _ => rfl

def afterTake (key owner : String) (work : Program ω α) : Except Failure Bool → Program ω (Except Failure (Option α))
  | .error failure => .done (.error failure)
  | .ok false => .done (.ok none)
  | .ok true => work.bind fun output =>
    .ask (.store (.compareAndDelete key owner)) fun _ => .done (.ok (some output))

theorem run_runExclusive (resource : String) (ttl : Duration) (work : Program ω α) :
    (runExclusive resource ttl work : Action ω (Option α)).run = .ask .token fun owner =>
      match checkArguments owner ttl with
      | .ok _ => .ask (.store (.setIfAbsent (key resource) owner ttl)) (afterTake (key resource) owner work)
      | .error failure => .done (.error failure) := by
  unfold runExclusive
  rw [Action.run_token_bind]
  congr
  funext owner
  rw [Action.run_bind, run_acquire]
  cases checkArguments owner ttl with
  | error failure => rfl
  | ok _ =>
    show Program.ask _ _ = Program.ask _ _
    congr
    funext reply
    rcases reply with failure | _ | _
    · rfl
    · rfl
    · show (Action.perform work >>= fun output => _ : Action ω (Option α)).run = _
      rw [Action.run_bind]
      show (work.bind fun a => Program.done (Except.ok a)).bind _ = work.bind _
      rw [Program.bind_assoc]
      rfl

theorem afterTake_asks {key owner : String} {reply : Except Failure Bool} {log : List (Answered ω)} {r : Store.Request}
    {next : (Ask.store r).Answer ω → Program ω (Except Failure (Option ω))}
    (h : (afterTake key owner (.once .work) reply).Leads log (.ask (.store r) next)) :
    ∃ w, reply = .ok true ∧ log = [⟨.work, w⟩] ∧
      Program.ask (.store r) next = .ask (.store (.compareAndDelete key owner)) fun _ => .done (.ok (some w)) := by
  rcases reply with failure | _ | _
  · exact absurd h Program.leads_done_ask
  · exact absurd h Program.leads_done_ask
  · rcases Program.leads_ask h with ⟨_, heq⟩ | ⟨w, more, rfl, hmore⟩
    · cases heq
    · rcases Program.leads_ask hmore with ⟨rfl, heq⟩ | ⟨_, _, _, hdone⟩
      · exact ⟨w, rfl, rfl, heq⟩
      · exact absurd hdone Program.leads_done_ask

/-- The first request that fails ends work under a lock in that failure, unless it is the one that gives the lock back after
the work: that is over then, and so is the whole. -/
theorem runExclusive_ends {resource : String} {ttl : Duration} {r : Store.Request} {failure : Failure}
    {before after : List (Answered ω)} {outcome : Except Failure (Option ω)}
    (h : (runExclusive resource ttl (.once .work) : Action ω (Option ω)).run.Leads
      (before ++ ⟨.store r, .error failure⟩ :: after) (.done outcome)) :
    after = [] ∧ (outcome = .error failure ∨ ∃ owner w, outcome = .ok (some w) ∧
      before = [⟨.token, owner⟩, ⟨.store (.setIfAbsent (key resource) owner ttl), .ok true⟩, ⟨.work, w⟩] ∧
      r = .compareAndDelete (key resource) owner) := by
  rw [run_runExclusive] at h
  obtain ⟨between, hbefore, hrest⟩ := Program.leads_append h
  obtain ⟨next, rfl, hafter⟩ := Program.leads_cons hrest
  rcases Program.leads_ask hbefore with ⟨_, heq⟩ | ⟨owner, log, rfl, htake⟩
  · cases heq
  · cases hargs : checkArguments owner ttl with
    | error failure =>
      rw [hargs] at htake
      exact absurd htake Program.leads_done_ask
    | ok _ =>
      rw [hargs] at htake
      rcases Program.leads_ask htake with ⟨rfl, heq⟩ | ⟨reply, more, rfl, htaken⟩
      · cases heq
        obtain ⟨hnone, hdone⟩ := Program.leads_done hafter
        cases hdone
        exact ⟨hnone, .inl rfl⟩
      · obtain ⟨w, rfl, rfl, heq⟩ := afterTake_asks htaken
        cases heq
        obtain ⟨hnone, hdone⟩ := Program.leads_done hafter
        cases hdone
        exact ⟨hnone, .inr ⟨owner, w, rfl, rfl, rfl⟩⟩

inductive Sent (key : String) : Store.Request → Prop
  | take (owner : String) (ttl : Duration) : Sent key (.setIfAbsent key owner ttl)
  | giveBack (owner : String) : Sent key (.compareAndDelete key owner)

section Requests
open Coordination.Action (Strict strict_bind strict_call strict_ofExcept)

theorem acquire_strict (key owner : String) (ttl : Duration) : Strict (Sent key) (acquire key owner ttl : Action ω Bool) :=
  strict_bind (strict_ofExcept _) fun _ => strict_call (.take owner ttl)

theorem release_strict (key owner : String) : Strict (Sent key) (release key owner : Action ω Bool) :=
  strict_call (.giveBack owner)

theorem runExclusive_sends {P : Store.Request → Prop} (resource : String) (ttl : Duration) {work : Program ω α}
    (hlock : ∀ r, Sent (key resource) r → P r) (hwork : work.Sends P) :
    (runExclusive resource ttl work : Action ω (Option α)).run.Sends P := by
  rw [run_runExclusive]
  intro owner
  dsimp only
  cases checkArguments owner ttl with
  | error failure => trivial
  | ok _ =>
    refine ⟨hlock _ (.take owner ttl), fun reply => ?_⟩
    rcases reply with failure | _ | _
    · trivial
    · trivial
    · exact hwork.bind fun _ => ⟨hlock _ (.giveBack owner), fun _ => trivial⟩

end Requests

end Coordination.Lock
