import Coordination.Idempotency.Record
import Coordination.Program

/-! # Idempotency

The first caller for a key writes a claim where nothing is and may then act; the others see the claim or the
finished response. A claim that is neither completed nor released is gone with its lifetime.
-/
namespace Coordination.Idempotency

structure Limits where
  inFlightTtl : Duration
  cacheTtl : Duration
  maxBodyBytes : Nat
deriving DecidableEq, Repr

def Limits.standard : Limits where
  inFlightTtl := .ofSeconds 60
  cacheTtl := .ofSeconds (24 * 60 * 60)
  maxBodyBytes := 1024 * 1024

/-- The longest key, in bytes. -/
def maxKeyBytes : Nat := 255

def storeKey (key : String) : String := "idempotency:" ++ key

def checkKey (key : String) : Except Failure Unit :=
  if key.isEmpty then .error (.invalidArgument .emptyKey)
  else if maxKeyBytes < key.utf8ByteSize then .error (.invalidArgument (.keyTooLong maxKeyBytes))
  else .ok ()

/-- Proof of holding the claim on a key: the key and the text of the claim. -/
structure Ticket where
  key : String
  sentinel : String
deriving DecidableEq, Repr

/-- What a caller for a key is told. -/
inductive Standing where
  /-- The caller is the first and may act. -/
  | acquired (ticket : Ticket)
  | inFlight
  | cached (response : CachedResponse)
deriving DecidableEq, Repr

inductive Completion where
  | stored
  /-- The body has more bytes than the limit; nothing was kept. -/
  | rejected (size limit : Nat)
deriving DecidableEq, Repr

variable {ω : Type}

/-- The standing that a stored record stands for. -/
def standingOf (text : String) : Except Failure Standing :=
  match Record.decode text with
  | .error fault => .error (.serialization fault)
  | .ok (.completed response) => .ok (.cached response)
  | .ok (.inFlight _) => .ok .inFlight

namespace Limits

/-- Claims a key, or tells what stands in the way. A record that goes away between the two requests counts as in
flight. -/
def check (limits : Limits) (key : String) : Action ω Standing := do
  Action.ofExcept (checkKey key)
  let token ← Action.token
  let startedAt ← Action.clock
  let sentinel := (Record.inFlight ⟨token, startedAt⟩).encode
  if ← Action.call (.setIfAbsent (storeKey key) sentinel limits.inFlightTtl) then
    pure (.acquired ⟨key, sentinel⟩)
  else
    match ← Action.call (.get (storeKey key)) with
    | none => pure .inFlight
    | some text => Action.ofExcept (standingOf text)

/-- Keeps a response for replay, whatever the key holds. -/
def complete (limits : Limits) (key : String) (response : CachedResponse) : Action ω Completion := do
  Action.ofExcept (checkKey key)
  let size := response.body.utf8ByteSize
  if limits.maxBodyBytes < size then pure (.rejected size limits.maxBodyBytes)
  else
    Action.call (.set (storeKey key) (Record.completed response).encode (some limits.cacheTtl))
    pure .stored

end Limits

/-- Gives up a claim; answers whether it was still there. -/
def release (ticket : Ticket) : Action ω Bool :=
  Action.call (.compareAndDelete (storeKey ticket.key) ticket.sentinel)

/-- Reads what a key holds without claiming it. -/
def inspect (key : String) : Action ω (Option Standing) := do
  Action.ofExcept (checkKey key)
  match ← Action.call (.get (storeKey key)) with
  | none => pure none
  | some text => some <$> Action.ofExcept (standingOf text)

end Coordination.Idempotency
