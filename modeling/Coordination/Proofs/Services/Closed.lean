import Coordination.Proofs.Services.Operation

/-! # Failing closed

Each request may be answered in any way and may fail at any time. The first one that fails is the last of its operation,
which comes to that very failure, so that what lets a caller go on is only told after every request was served. The one
failure that is dropped is that of giving a lock back when the work under it is over.
-/
namespace Coordination.Services
open Coordination.Action (consults_bind_left consults_bind_right consults_call)

variable {ω : Type}

/-- The answer lets a caller go on that the service is there to stop. -/
def Operation.Grants : Operation → Answer ω → Prop
  | .acquire .., .whether done => done = true
  | .count rules context, .decided decision | .countAt rules context _, .decided decision =>
    decision.isBlocked = false ∧ ∃ d, (rules.eligible? context d).isSome
  | .claim .., .stands standing => standing ≠ .inFlight
  | .inspect _, .found standing => ∃ response, standing = some (.cached response)
  | .signIn (.check _), .throttled result => result = .stands .allowed
  | _, _ => False

theorem checkDimensions_consults {rules : RateLimit.Rules} {context : RateLimit.Context} (nowMs : Int)
    {ds : List RateLimit.Dimension} {d : RateLimit.Dimension} (hd : d ∈ ds) (h : (rules.eligible? context d).isSome) :
    (rules.checkDimensions context nowMs ds : Action ω RateLimit.Decision).run.Consults := by
  induction ds with
  | nil => cases hd
  | cons first rest ih =>
    rw [RateLimit.Rules.checkDimensions]
    cases helig : rules.eligible? context first with
    | some counted => exact consults_bind_left (consults_bind_left (consults_call _) _) _
    | none =>
      rcases List.mem_cons.1 hd with rfl | hd
      · rw [helig] at h
        cases h
      · exact ih hd

/-- Whatever lets a caller go on has asked the store. -/
theorem Operation.consults_of_grants {op : Operation} {answer : Answer ω} (h : op.Grants answer) :
    (op.action : Action ω (Answer ω)).run.Consults := by
  cases op with
  | acquire key owner ttl => exact consults_bind_left (consults_bind_right _ fun _ => consults_call _) _
  | count rules context =>
    cases answer with
    | decided decision =>
      obtain ⟨_, d, helig⟩ := h
      exact consults_bind_left (consults_bind_right _ fun ms => checkDimensions_consults ms d.mem_all helig) _
    | _ => exact absurd h id
  | countAt rules context nowMs =>
    cases answer with
    | decided decision =>
      obtain ⟨_, d, helig⟩ := h
      exact consults_bind_left (checkDimensions_consults nowMs d.mem_all helig) _
    | _ => exact absurd h id
  | claim limits key =>
    refine consults_bind_left (consults_bind_right _ fun _ => consults_bind_right _ fun token => ?_) _
    exact consults_bind_right _ fun ms => consults_bind_left (consults_call _) _
  | inspect key => exact consults_bind_left (consults_bind_right _ fun _ => consults_bind_left (consults_call _) _) _
  | signIn call =>
    cases call with
    | check s => exact consults_bind_left (consults_bind_left (consults_bind_left (consults_bind_left (consults_call _) _) _) _) _
    | _ => exact absurd h id
  | _ => exact absurd h id

/-- The request that failed was the last one, and the operation came to its failure or was work under a lock that was over. -/
theorem Operation.ends_of_failed (op : Operation) {r : Store.Request} {failure : Failure} {before after : List (Answered ω)}
    {outcome : Except Failure (Answer ω)}
    (h : (op.action : Action ω (Answer ω)).run.Leads (before ++ ⟨.store r, .error failure⟩ :: after) (.done outcome)) :
    after = [] ∧ (outcome = .error failure ∨ ∃ resource ttl owner w,
      op = .runExclusive resource ttl ∧ outcome = .ok (.ran (some w)) ∧
      before = [⟨.token, owner⟩, ⟨.store (.setIfAbsent (Lock.key resource) owner ttl), .ok true⟩, ⟨.work, w⟩] ∧
      r = .compareAndDelete (Lock.key resource) owner) := by
  rcases op.strict_or_runs (ω := ω) with hstrict | ⟨resource, ttl, rfl⟩
  · obtain ⟨hlast, hout⟩ := hstrict.failsFast.ends h
    exact ⟨hlast, .inl hout⟩
  · have hreturn : (action (.runExclusive resource ttl) : Action ω (Answer ω)).run = _ := Action.run_return _ Answer.ran
    rw [hreturn, Program.leads_map_done] at h
    obtain ⟨inner, rfl, hleads⟩ := h
    obtain ⟨hlast, hout⟩ := Lock.runExclusive_ends hleads
    refine ⟨hlast, ?_⟩
    rcases hout with rfl | ⟨owner, w, rfl, hbefore, hr⟩
    · exact .inl rfl
    · exact .inr ⟨resource, ttl, owner, w, rfl, rfl, hbefore, hr⟩

/-- In every world: a request that fails is the last one of its operation and its failure the outcome, but for the giving
back of a lock after the work; and what lets a caller go on is told only after the store was asked and served every
request. -/
theorem first_failure_ends (op : Operation) (world : World ω) :
    let course := (op.action : Action ω (Answer ω)).run.course world
    (∀ before r failure after, course.1 = before ++ ⟨.store r, .error failure⟩ :: after →
      after = [] ∧ (course.2 = .error failure ∨ ∃ resource ttl owner w,
        op = .runExclusive resource ttl ∧ course.2 = .ok (.ran (some w)) ∧
        before = [⟨.token, owner⟩, ⟨.store (.setIfAbsent (Lock.key resource) owner ttl), .ok true⟩, ⟨.work, w⟩] ∧
        r = .compareAndDelete (Lock.key resource) owner)) ∧
    ∀ answer, course.2 = .ok answer → op.Grants answer →
      (∃ r reply, (⟨.store r, .ok reply⟩ : Answered ω) ∈ course.1) ∧
        ∀ r failure, (⟨.store r, .error failure⟩ : Answered ω) ∉ course.1 := by
  intro course
  have hleads : (op.action : Action ω (Answer ω)).run.Leads course.1 (.done course.2) := Program.leads_course world _
  refine ⟨?_, ?_⟩
  · intro before r failure after hlog
    rw [hlog] at hleads
    exact op.ends_of_failed hleads
  · intro answer hok hgrants
    have hserved : ∀ r failure, (⟨.store r, .error failure⟩ : Answered ω) ∉ course.1 := by
      intro r failure hmem
      obtain ⟨before, after, hlog⟩ := List.append_of_mem hmem
      rw [hlog] at hleads
      rcases (op.ends_of_failed hleads).2 with hout | ⟨resource, ttl, owner, w, rfl, _⟩
      · cases hok.symm.trans hout
      · exact hgrants
    rw [hok] at hleads
    obtain ⟨r, reply, hmem⟩ := (Operation.consults_of_grants hgrants).asked hleads
    refine ⟨?_, hserved⟩
    cases reply with
    | error failure => exact absurd hmem (hserved r failure)
    | ok reply => exact ⟨r, reply, hmem⟩

end Coordination.Services
