import Coordination.Failure
import Coordination.Time

/-! # The store's operations

Everything is built on eight operations of a key-value store. An operation fixes the type of its reply; a
request is an operation with its arguments. Each is atomic per key.
-/
namespace Coordination.Store

inductive Operation where
  | ping
  | setIfAbsent
  | get
  | set
  | delete
  | increment
  | ttlRemaining
  | compareAndDelete
deriving DecidableEq, Repr

/-- What a successful operation answers. -/
abbrev Operation.Reply : Operation → Type
  | .ping => Unit
  | .setIfAbsent => Bool
  | .get => Option String
  | .set => Unit
  | .delete => Bool
  | .increment => Int
  | .ttlRemaining => Option Duration
  | .compareAndDelete => Bool

inductive Request where
  /-- Whether the store answers at all. -/
  | ping
  /-- Writes a value with a lifetime unless the key is there; answers whether it was written. -/
  | setIfAbsent (key value : String) (ttl : Duration)
  | get (key : String)
  /-- Writes a value in any case; the lifetime replaces the one that the key had. -/
  | set (key value : String) (ttl : Option Duration)
  /-- Answers whether the key was there. -/
  | delete (key : String)
  /-- Adds to the integer at a key and answers the sum. The lifetime counts only for a key that has none. -/
  | increment (key : String) (amount : Int) (ttl : Option Duration)
  /-- What is left of a key's lifetime, if the key is there and has one. -/
  | ttlRemaining (key : String)
  /-- Deletes the key only while it holds the expected value; answers whether it did. -/
  | compareAndDelete (key expected : String)
deriving DecidableEq, Repr

namespace Request

@[reducible] def operation : Request → Operation
  | .ping => .ping
  | .setIfAbsent .. => .setIfAbsent
  | .get _ => .get
  | .set .. => .set
  | .delete _ => .delete
  | .increment .. => .increment
  | .ttlRemaining _ => .ttlRemaining
  | .compareAndDelete .. => .compareAndDelete

abbrev Reply (r : Request) : Type := r.operation.Reply

/-- The lifetime that a request writes with. -/
def ttl? : Request → Option Duration
  | .setIfAbsent _ _ ttl => some ttl
  | .set _ _ ttl => ttl
  | .increment _ _ ttl => ttl
  | _ => none

end Request

/-- A lifetime is at least a millisecond long. -/
def checkTtl (ttl : Duration) : Except Failure Unit :=
  if ttl.millis = 0 then .error (.invalidArgument .ttlTooShort) else .ok ()

/-- The lifetime of a request is long enough, if it has one. -/
def Request.checkTtl (r : Request) : Except Failure Unit :=
  match r.ttl? with
  | some ttl => Store.checkTtl ttl
  | none => .ok ()

theorem checkTtl_eq_ok {ttl : Duration} : checkTtl ttl = .ok () ↔ ttl.millis ≠ 0 := by
  unfold checkTtl
  split <;> simp_all

end Coordination.Store
