import Coordination.Remote.Greeting
import Coordination.Store.Request

/-! # The client of a store server

Every request makes a connection, greets the server, sends its command and reads the reply; all of it together has to be
done within a limit of time. Two requests are scripts that the server runs in one go. They are called by their digest, and
sent as a whole only where the server does not know them.
-/
namespace Coordination.Remote
open Store (Request Operation)

inductive Signal where
  /-- The first one makes the connection. -/
  | greeting (endpoint : Endpoint) (c : Command)
  | command (c : Command)
deriving DecidableEq, Repr

inductive Arrival where
  | reply (r : Reply)
  /-- The connection was refused or broke. -/
  | dropped
  /-- Nothing, within the time there was. -/
  | silence

inductive Exchange (α : Type) : Type where
  | done (a : α)
  | send (s : Signal) (next : Arrival → Exchange α)

namespace Exchange

def bind {α β : Type} : Exchange α → (α → Exchange β) → Exchange β
  | .done a, f => f a
  | .send s next, f => .send s fun arrival => (next arrival).bind f

instance : Monad Exchange where
  pure := .done
  bind := bind

/-- Holds a conversation with whatever answers the signals. -/
def hold {m : Type → Type} [Monad m] {α : Type} (answer : Signal → m Arrival) : Exchange α → m α
  | .done a => pure a
  | .send s next => do
    let arrival ← answer s
    (next arrival).hold answer

end Exchange

/-- A script that a server runs in one go, with the digest that it is called by. -/
structure Script where
  digest : String
  text : String
deriving DecidableEq, Repr

namespace Script

def compareAndDelete : Script where
  digest := "b255ee9bbff4d3e5607b1c4c966e4e6499f55c3c"
  text := "
if redis.call('GET', KEYS[1]) == ARGV[1] then
    return redis.call('DEL', KEYS[1])
end
return 0
"

def increment : Script where
  digest := "88bd9b1d8a155df653a792d20851fa425d6cab8a"
  text := "
local count = redis.call('INCRBY', KEYS[1], ARGV[1])
if redis.call('PTTL', KEYS[1]) == -1 then
    redis.call('PEXPIRE', KEYS[1], ARGV[2])
end
return count
"

def call (s : Script) (key : String) (arguments : List String) : Command :=
  ["EVALSHA", s.digest, "1", key] ++ arguments

def load (s : Script) : Command := ["SCRIPT", "LOAD", s.text]

end Script

/-- The milliseconds of a lifetime as a server takes them. -/
def ttlText (ttl : Duration) : String := toString ((Bounds.unsigned 64).capped ttl.millis)

/-- A client, by the server that it talks to and the time that a round trip may take. -/
structure Client where
  address : Address
  timeout : Duration
deriving DecidableEq, Repr

namespace Client

/-- A client for the server at a URL. Nothing is connected yet. -/
def ofUrl (url : String) (timeout : Duration) : Except Failure Client :=
  match Address.parse? url with
  | some address => .ok ⟨address, timeout⟩
  | none => .error (.invalidArgument (.storeUrl "this is no address of a store"))

variable {α : Type}

def ask (client : Client) (s : Signal) (next : Reply → Exchange (Except Failure α)) : Exchange (Except Failure α) :=
  .send s fun
    | .reply r =>
      if r.isLegible then next r else .done (.error (.internal (.reply "an integer in the reply is out of range")))
    | .dropped => .done (.error (.unavailable (.link "the connection is closed")))
    | .silence => .done (.error (.unavailable (.tooSlow client.timeout.millis)))

/-- Sends greetings, and goes on with what the replies come to when all of them are there. -/
def greet (client : Client) : List Greeting → (Welcome → Exchange (Except Failure α)) → Exchange (Except Failure α)
  | [], next => next .admitted
  | g :: rest, next =>
    client.ask (.greeting client.address.endpoint g.command) fun r =>
      client.greet rest fun later => next ((g.judge r).and later)

/-- Makes a connection and goes on where the server lets the client in. -/
def connect (client : Client) (next : Exchange (Except Failure α)) : Exchange (Except Failure α) :=
  client.greet (client.address.greetings true) fun
    | .admitted => next
    | .refused cause => .done (.error (.internal cause))
    | .nameless => client.greet (client.address.greetings false) fun
      | .refused cause => .done (.error (.internal cause))
      | .admitted | .nameless => next

def query (client : Client) (c : Command) (read : Reply → Except Failure α) : Exchange (Except Failure α) :=
  client.connect (client.ask (.command c) fun r => .done (read r))

/-- Calls a script, and loads it first if the server does not know it. -/
def runScript (client : Client) (s : Script) (key : String) (arguments : List String)
    (read : Reply → Except Failure α) : Exchange (Except Failure α) :=
  client.connect <| client.ask (.command (s.call key arguments)) fun r =>
    if r.isNoScript then
      client.ask (.command s.load) fun loaded =>
        match loaded.accept with
        | .error f => .done (.error f)
        | .ok () => client.ask (.command (s.call key arguments)) fun r => .done (read r)
    else .done (read r)

def readPong (r : Reply) : Except Failure Unit := do
  let text ← r.text
  if text = "PONG" then pure () else .error (.internal (.unexpectedPong text))

def readPresence (r : Reply) : Except Failure Bool := Option.isSome <$> r.optionalText

def readCount (r : Reply) : Except Failure Bool := (fun n => decide (0 < n)) <$> r.integerValue

/-- A lifetime in milliseconds; zero and less stand for none. -/
def readLifetime (r : Reply) : Except Failure (Option Duration) :=
  (fun n => if 0 < n then some (.ofMillis n.toNat) else none) <$> r.integerValue

/-- The conversation of a request whose lifetime, if any, is long enough. -/
def converse (client : Client) : (r : Request) → Exchange (Except Failure r.Reply)
  | .ping => client.query ["PING"] readPong
  | .setIfAbsent key value ttl => client.query ["SET", key, value, "NX", "PX", ttlText ttl] readPresence
  | .get key => client.query ["GET", key] Reply.optionalText
  | .set key value ttl =>
    let lifetime := match ttl with
      | some ttl => ["PX", ttlText ttl]
      | none => []
    client.query (["SET", key, value] ++ lifetime) Reply.accept
  | .delete key => client.query ["DEL", key] readCount
  | .increment key amount none => client.query ["INCRBY", key, toString amount] Reply.integerValue
  | .increment key amount (some ttl) =>
    client.runScript .increment key [toString amount, ttlText ttl] Reply.integerValue
  | .ttlRemaining key => client.query ["PTTL", key] readLifetime
  | .compareAndDelete key expected => client.runScript .compareAndDelete key [expected] readCount

/-- Sends a request. A lifetime that is too short is refused before anything is sent. -/
def request (client : Client) (r : Request) : Exchange (Except Failure r.Reply) :=
  match r.checkTtl with
  | .error e => .done (.error e)
  | .ok () => client.converse r

end Client

end Coordination.Remote
