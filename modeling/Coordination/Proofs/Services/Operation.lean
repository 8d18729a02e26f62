import Coordination.Services
import Coordination.Proofs.Idempotency.Course
import Coordination.Proofs.Lock.Course
import Coordination.Proofs.RateLimit.Course
import Coordination.Proofs.SignIn.Requests

/-! # The operations of the services

Locks, rate limits, idempotency and sign-in throttling share a store. Whatever their rules and arguments, what one of their
operations sends is known beforehand, and all but work under a lock end in the first failure of the store.
-/
namespace Coordination.Services
open Coordination.Action (Strict strict_bind strict_pure)

/-- All that the four services can be asked to do; services with different rules may share a store. -/
inductive Operation where
  | acquire (key owner : String) (ttl : Duration)
  | giveBack (key owner : String)
  | runExclusive (resource : String) (ttl : Duration)
  | count (rules : RateLimit.Rules) (context : RateLimit.Context)
  | countAt (rules : RateLimit.Rules) (context : RateLimit.Context) (nowMs : Int)
  | claim (limits : Idempotency.Limits) (key : String)
  | inspect (key : String)
  | complete (limits : Idempotency.Limits) (key : String) (response : Idempotency.CachedResponse)
  | giveUp (ticket : Idempotency.Ticket)
  | signIn (call : SignIn.Call)

inductive Answer (ω : Type) where
  | whether (done : Bool)
  | ran (output : Option ω)
  | decided (decision : RateLimit.Decision)
  | stands (standing : Idempotency.Standing)
  | found (standing : Option Idempotency.Standing)
  | completed (completion : Idempotency.Completion)
  | throttled (result : SignIn.Result)
deriving DecidableEq, Repr

namespace Operation

variable {ω : Type}

def action : Operation → Action ω (Answer ω)
  | .acquire key owner ttl => do return .whether (← Lock.acquire key owner ttl)
  | .giveBack key owner => do return .whether (← Lock.release key owner)
  | .runExclusive resource ttl => do return .ran (← Lock.runExclusive resource ttl (.once .work))
  | .count rules context => do return .decided (← rules.check context)
  | .countAt rules context nowMs => do return .decided (← rules.checkAt context nowMs)
  | .claim limits key => do return .stands (← limits.check key)
  | .inspect key => do return .found (← Idempotency.inspect key)
  | .complete limits key response => do return .completed (← limits.complete key response)
  | .giveUp ticket => do return .whether (← Idempotency.release ticket)
  | .signIn call => do return .throttled (← call.action)

def Sent : Operation → Store.Request → Prop
  | .acquire key _ _ | .giveBack key _ => Lock.Sent key
  | .runExclusive resource _ => Lock.Sent (Lock.key resource)
  | .count _ context | .countAt _ context _ => RateLimit.SentFor context
  | .claim _ key | .inspect key | .complete _ key _ => Idempotency.Sent key
  | .giveUp ticket => Idempotency.Sent ticket.key
  | .signIn call => SignIn.Sent call.subject

theorem strict_or_runs (op : Operation) :
    Strict op.Sent (op.action : Action ω (Answer ω)) ∨ ∃ resource ttl, op = .runExclusive resource ttl := by
  cases op with
  | runExclusive resource ttl => exact .inr ⟨resource, ttl, rfl⟩
  | acquire key owner ttl => exact .inl (strict_bind (Lock.acquire_strict ..) fun _ => strict_pure _)
  | giveBack key owner => exact .inl (strict_bind (Lock.release_strict ..) fun _ => strict_pure _)
  | count rules context => exact .inl (strict_bind (RateLimit.check_strict ..) fun _ => strict_pure _)
  | countAt rules context nowMs => exact .inl (strict_bind (RateLimit.checkAt_strict ..) fun _ => strict_pure _)
  | claim limits key => exact .inl (strict_bind (Idempotency.check_strict ..) fun _ => strict_pure _)
  | inspect key => exact .inl (strict_bind (Idempotency.inspect_strict ..) fun _ => strict_pure _)
  | complete limits key response => exact .inl (strict_bind (Idempotency.complete_strict ..) fun _ => strict_pure _)
  | giveUp ticket => exact .inl (strict_bind (Idempotency.release_strict _) fun _ => strict_pure _)
  | signIn call => exact .inl (strict_bind call.strict fun _ => strict_pure _)

theorem sends (op : Operation) : (op.action : Action ω (Answer ω)).run.Sends op.Sent := by
  rcases op.strict_or_runs (ω := ω) with hstrict | ⟨resource, ttl, rfl⟩
  · exact hstrict.sends
  · exact Action.sends_bind (Lock.runExclusive_sends resource ttl (fun _ hr => hr) fun _ => trivial) fun _ => trivial

end Operation

end Coordination.Services
