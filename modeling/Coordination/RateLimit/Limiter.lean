import Coordination.Bounds
import Coordination.Program
import Coordination.RateLimit.Dimension

/-! # Rate limits

Requests are counted per dimension, value and window of time. The request that takes a counter over its
threshold also writes a block marker, and while that marker lives every request with the value is refused,
whatever window it falls in. The first dimension that blocks decides.
-/
namespace Coordination.RateLimit

structure Rules where
  window : Duration
  blockDuration : Duration
  /-- The wait that is told when the lifetime of a marker cannot be read. -/
  defaultRetryAfter : Duration
  thresholds : Thresholds
  whitelist : Whitelist
deriving DecidableEq, Repr

def Rules.standard : Rules where
  window := .ofSeconds 60
  blockDuration := .ofSeconds 300
  defaultRetryAfter := .ofSeconds 60
  thresholds := .standard
  whitelist := {}

/-- The outcome for one request, with the wait in milliseconds. -/
structure Decision where
  isBlocked : Bool
  blockedBy : Option Dimension
  retryAfterMs : Nat
deriving DecidableEq, Repr

/-- Milliseconds as they are told to clients. -/
def wordOfMillis (d : Duration) : Nat := ((Bounds.unsigned 64).capped d.millis).toNat

namespace Decision

def allowed : Decision := ⟨false, none, 0⟩

def blocked (d : Dimension) (retryAfter : Duration) : Decision := ⟨true, some d, wordOfMillis retryAfter⟩

end Decision

variable {ω : Type}

def counterKey (d : Dimension) (value : String) (window : Int) : String :=
  s!"ratelimit:{d.keyName}:{value}:{window}"

def blockKey (d : Dimension) (value : String) : String := s!"blocked:{d.keyName}:{value}"

namespace Rules

/-- The number of the window that a wall time falls in: windows of whole milliseconds, counted from the
epoch. -/
def windowAt (rules : Rules) (nowMs : Int) : Int :=
  nowMs / max 1 ((Bounds.signed 64).capped rules.window.millis)

/-- Counts a request in one dimension; answers a decision if it is blocked there. -/
def checkDimension (rules : Rules) (d : Dimension) (value : String) (threshold : Nat) (nowMs : Int) :
    Action ω (Option Decision) := do
  match ← Action.call (.get (blockKey d value)) with
  | some _ =>
    let left ← Action.call (.ttlRemaining (blockKey d value))
    pure (some (.blocked d (left.getD rules.defaultRetryAfter)))
  | none =>
    let count ← Action.call (.increment (counterKey d value (rules.windowAt nowMs)) 1 (some rules.window))
    if count.toNat ≤ threshold then pure none
    else
      Action.call (.set (blockKey d value) (toString nowMs) (some rules.blockDuration))
      pure (some (.blocked d rules.blockDuration))

/-- The value and threshold that a request is counted by in a dimension, if it is. -/
def eligible? (rules : Rules) (context : Context) (d : Dimension) : Option (String × Nat) := do
  let value ← context.value d
  let threshold ← rules.thresholds.get? d
  if rules.whitelist.contains d value then none else some (value, threshold)

/-- Checks the dimensions in order up to the first that blocks. -/
def checkDimensions (rules : Rules) (context : Context) (nowMs : Int) : List Dimension → Action ω Decision
  | [] => pure .allowed
  | d :: rest =>
    match rules.eligible? context d with
    | none => rules.checkDimensions context nowMs rest
    | some (value, threshold) => do
      match ← rules.checkDimension d value threshold nowMs with
      | some decision => pure decision
      | none => rules.checkDimensions context nowMs rest

/-- Counts a request at a wall time and decides whether it is blocked. -/
def checkAt (rules : Rules) (context : Context) (nowMs : Int) : Action ω Decision :=
  rules.checkDimensions context nowMs Dimension.all

/-- Counts a request now. -/
def check (rules : Rules) (context : Context) : Action ω Decision := do
  let nowMs ← Action.clock
  rules.checkAt context nowMs

end Rules

end Coordination.RateLimit
