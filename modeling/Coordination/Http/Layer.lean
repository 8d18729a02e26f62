import Coordination.Http.Message
import Coordination.Services

/-! # HTTP layers

A layer stands in front of a handler and decides whether a request reaches it. The rate limit layer refuses blocked
requests. The idempotency layer runs the handler once per key, refuses duplicates while it runs and replays its
response after that. Neither lets a request through when the store fails.
-/
namespace Coordination.Http
open Idempotency (CachedResponse Ticket)

/-- The answer to a request whose service failed. -/
def Response.ofFailure : Failure → Response
  | .unavailable _ => .plain 503 "Service temporarily unavailable"
  | .invalidArgument cause => .plain 400 cause.message
  | _ => .plain 500 "Internal server error"

inductive Layer where
  | rateLimit
  | idempotency
deriving DecidableEq, Repr

variable {ω : Type}

/-! ## Rate limits -/

/-- The whole seconds that a blocked client is told to wait, at least one. -/
def retryAfterSeconds (retryAfterMs : Nat) : Nat := max 1 ((retryAfterMs + 999) / 1000)

def tooManyRequests (decision : RateLimit.Decision) : Response :=
  let refusal := Response.json 429 (.object [
    ("error", .text "Too many requests. Try again later."),
    ("retry_after_ms", .integer decision.retryAfterMs)])
  { refusal with
    headers := refusal.headers.insert "retry-after" (toString (retryAfterSeconds decision.retryAfterMs)).toUTF8 }

def limitRate (rules : RateLimit.Rules) (request : Request) (next : Program ω Response) : Program ω Response := do
  match ← ExceptT.run (rules.check (request.context.getD {})) with
  | .error failure => pure (.ofFailure failure)
  | .ok decision => if decision.isBlocked then pure (tooManyRequests decision) else next

/-! ## Idempotency -/

def keyHeader : String := "idempotency-key"

def replayedHeader : String := "idempotent-replayed"

def inProgress : Response :=
  .json 409 (.object [("error", .text "A request with this idempotency key is still in progress")])

/-- A cached response as it goes out again, marked as a replay. A status that is none becomes 500. -/
def replay (cached : CachedResponse) : Response :=
  let status := if 100 ≤ cached.statusCode ∧ cached.statusCode ≤ 999 then cached.statusCode else 500
  let contentType : Headers :=
    match cached.contentType.bind headerValue? with
    | some value => [("content-type", value)]
    | none => []
  ⟨status, contentType.insert replayedHeader "true".toUTF8, .whole cached.body.toUTF8⟩

/-- What is kept of a response with a text body. -/
def cacheable (response : Response) (text : String) : CachedResponse where
  statusCode := response.status
  body := text
  contentType := (response.headers.get? "content-type").bind visibleText?

/-- Settles a claim by the response that came of it: a server error or a broken body releases it, a text body is
kept, and any other body leaves the claim as it is. The store's failures do not reach the client. -/
def settle (limits : Idempotency.Limits) (ticket : Ticket) (response : Response) : Program ω Response := do
  if response.isServerError then
    let _ ← ExceptT.run (Idempotency.release ticket)
    pure response
  else
    match response.body with
    | .broken => do
      let _ ← ExceptT.run (Idempotency.release ticket)
      pure (.plain 500 "Internal server error")
    | .whole bytes =>
      match String.fromUTF8? bytes with
      | none => pure response
      | some text => do
        let _ ← ExceptT.run (limits.complete ticket.key (cacheable response text))
        pure response

def runOnce (limits : Idempotency.Limits) (request : Request) (next : Program ω Response) : Program ω Response :=
  match request.headers.get? keyHeader with
  | none => next
  | some value =>
    match visibleText? value with
    | none => pure (.plain 400 "Invalid Idempotency-Key header")
    | some key => do
      match ← ExceptT.run (limits.check key) with
      | .error failure => pure (.ofFailure failure)
      | .ok (.acquired ticket) => do
        let response ← next
        settle limits ticket response
      | .ok .inFlight => pure inProgress
      | .ok (.cached cached) => pure (replay cached)

/-! ## Stacks of layers -/

def Layer.wrap (services : Services) (request : Request) (next : Program ω Response) : Layer → Program ω Response
  | .rateLimit => limitRate services.rateLimit request next
  | .idempotency => runOnce services.idempotency request next

/-- Serves a request through layers, outermost first; the handler is the work. -/
def serve (services : Services) (request : Request) : List Layer → Program Response Response
  | [] => Program.once .work
  | layer :: inner => layer.wrap services request (serve services request inner)

end Coordination.Http
