import Coordination.Failure
import Coordination.Json.Tagged
import Coordination.Json.Writer

/-! # Idempotency records

What is kept under an idempotency key: a claim that is being worked on, or the response that came of it. A record
is one object whose member `state` tells which.
-/
namespace Coordination.Idempotency
open Json

/-- A finished response, to be replayed as it is. -/
structure CachedResponse where
  statusCode : Nat
  body : String
  contentType : Option String
deriving DecidableEq, Repr

namespace CachedResponse

def shape : Shape CachedResponse where
  title := "struct CachedResponse"
  start := ⟨0, "", none⟩
  slots := [
    .required "status_code" (.natural 16 "u16") fun r n => { r with statusCode := n },
    .required "body" .text fun r s => { r with body := s },
    .defaulted "content_type" (.optional .text) fun r t => { r with contentType := t }]

def members (r : CachedResponse) : List (String × Value) := [
  ("status_code", .integer r.statusCode),
  ("body", .text r.body),
  ("content_type", match r.contentType with | none => .null | some t => .text t)]

def toJson (r : CachedResponse) : Value := .object r.members

end CachedResponse

/-- Who is working on a key and since when, in milliseconds of the wall clock. -/
structure Claim where
  token : String
  startedAt : Int
deriving DecidableEq, Repr

namespace Claim

def shape : Shape Claim where
  title := "struct variant Record::InFlight"
  start := ⟨"", 0⟩
  slots := [
    .required "token" .text fun c s => { c with token := s },
    .required "started_at" (.integer (.signed 64) "i64") fun c n => { c with startedAt := n }]

def members (c : Claim) : List (String × Value) := [("token", .text c.token), ("started_at", .integer c.startedAt)]

end Claim

inductive Record where
  | inFlight (claim : Claim)
  | completed (response : CachedResponse)
deriving DecidableEq, Repr

namespace Record

inductive State where
  | inFlight
  | completed
deriving DecidableEq, Repr

def State.name : State → String
  | .inFlight => "in_flight"
  | .completed => "completed"

def tagging : Tagging State where
  title := "internally tagged enum Record"
  tag := "state"
  variants := [(State.inFlight.name, .inFlight), (State.completed.name, .completed)]

/-- The record of a state with the given contents. -/
def ofContents (v : Value) : State → Except Mismatch Record
  | .inFlight => .inFlight <$> Claim.shape.take v
  | .completed => .completed <$> CachedResponse.shape.take v

def reader : Reader Record := do
  let (state, contents) ← tagging.read
  match ofContents contents state with
  | .ok record => pure record
  | .error cause => throw (.mismatch cause)

/-- Reads a record from its text. -/
def decode (text : String) : Except Fault Record := reader.whole text

def toJson : Record → Value
  | .inFlight claim => .object (("state", .text State.inFlight.name) :: claim.members)
  | .completed response => .object (("state", .text State.completed.name) :: response.members)

def encode (record : Record) : String := record.toJson.render

end Record

end Coordination.Idempotency
