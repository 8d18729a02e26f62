import Coordination.Proofs.Remote.Script
import Coordination.Proofs.Remote.Sha1

/-! # A store server

A server has keys, and the digests of the scripts that were loaded, in whatever way; a digest stands for one script. A
request of a client is a conversation in which the server answers at once, and runs each command and each script in one
go.
-/
namespace Coordination.Remote
open Store (Request)

structure Server where
  items : Keyspace
  loaded : List String

/-- The routine that a digest stands for, among those of the client. -/
def Routine.ofDigest? (digest : String) : Option Routine :=
  [compareAndDelete, increment].find? fun p => Digest.Sha1.hexDigest p.text == digest

namespace Reply

def noScript : Reply := .error "NOSCRIPT No matching script. Please use EVAL."

theorem isNoScript_noScript : noScript.isNoScript = true := by decide

/-- For a script that is none of the client's. -/
def unknownScript : Reply := .error "ERR the script cannot be run"

end Reply

namespace Server

def call (now : Nat) (digest : String) (given : Given) : StateM Server Reply := fun server =>
  if digest ∈ server.loaded then
    match Routine.ofDigest? digest with
    | some p => ((p.run now given server.items).1, { server with items := (p.run now given server.items).2 })
    | none => (.unknownScript, server)
  else (.noScript, server)

def execute (now : Nat) : Command → StateM Server Reply
  | ["SCRIPT", "LOAD", text] => fun server =>
    (.bulk (Digest.Sha1.hexDigest text).toUTF8, { server with loaded := Digest.Sha1.hexDigest text :: server.loaded })
  | "EVALSHA" :: digest :: "1" :: key :: arguments => call now digest ⟨[key], arguments⟩
  | c => fun server => ((server.items.run now c).1, { server with items := (server.items.run now c).2 })

def answer (now : Nat) : Signal → StateM Server Arrival
  | .greeting _ _ => pure (.reply (.status "OK"))
  | .command c => .reply <$> execute now c

def serve (server : Server) (client : Client) (now : Nat) (r : Request) : Except Failure r.Reply × Server :=
  (client.request r).hold (answer now) server

end Server

theorem Script.hexDigest_compareAndDelete : Digest.Sha1.hexDigest compareAndDelete.text = compareAndDelete.digest := by
  decide +kernel

theorem Script.hexDigest_increment : Digest.Sha1.hexDigest increment.text = increment.digest := by decide +kernel

/-- A script of the client with the routine that a server runs for it. -/
structure Script.Runs (s : Script) (p : Routine) : Prop where
  digest : Digest.Sha1.hexDigest s.text = s.digest
  routine : Routine.ofDigest? s.digest = some p

theorem Script.compareAndDelete_runs : compareAndDelete.Runs .compareAndDelete where
  digest := hexDigest_compareAndDelete
  routine := by simp [Routine.ofDigest?, Routine.text_compareAndDelete, hexDigest_compareAndDelete]

theorem Script.increment_runs : increment.Runs .increment where
  digest := hexDigest_increment
  routine := by
    have hne : compareAndDelete.digest ≠ increment.digest := by decide
    simp [Routine.ofDigest?, Routine.text_compareAndDelete, hexDigest_compareAndDelete, Routine.text_increment,
      hexDigest_increment, hne]

namespace Server
variable {α : Type} {client : Client} {now : Nat} {read : Reply → Except Failure α}

theorem hold_done (a : Except Failure α) (server : Server) :
    (Exchange.done a).hold (answer now) server = (a, server) := rfl

theorem hold_greet {gs : List Greeting} (h : ∀ g ∈ gs, g.judge (.status "OK") = .admitted)
    (after : Welcome → Exchange (Except Failure α)) (server : Server) :
    (client.greet gs after).hold (answer now) server = (after .admitted).hold (answer now) server := by
  induction gs generalizing after with
  | nil => rfl
  | cons g gs ih =>
    obtain ⟨hg, hgs⟩ := List.forall_mem_cons.1 h
    have hfirst : (client.greet (g :: gs) after).hold (answer now) server =
        (client.greet gs fun later => after ((g.judge (.status "OK")).and later)).hold (answer now) server := rfl
    rw [hfirst, ih hgs, hg]
    rfl

theorem hold_connect (next : Exchange (Except Failure α)) (server : Server) :
    (client.connect next).hold (answer now) server = next.hold (answer now) server :=
  hold_greet (fun _ => Address.judge_ok) _ server

theorem hold_command (c : Command) (next : Reply → Exchange (Except Failure α)) {server after : Server} {r : Reply}
    (h : execute now c server = (r, after)) (hr : r.isLegible = true) :
    (client.ask (.command c) next).hold (answer now) server = (next r).hold (answer now) after := by
  have hasked := congrArg (fun x : Reply × Server => (if x.1.isLegible then next x.1
    else .done (.error (.internal (.reply "an integer in the reply is out of range")))).hold (answer now) x.2) h
  simp only [hr, if_true] at hasked
  exact hasked

theorem hold_query {c : Command} {server after : Server} {r : Reply} (h : execute now c server = (r, after))
    (hr : r.isLegible = true) : (client.query c read).hold (answer now) server = (read r, after) := by
  rw [Client.query, hold_connect, hold_command c _ h hr, hold_done]

theorem call_of_mem {s : Script} {p : Routine} (hruns : s.Runs p) {given : Given} {server : Server} {r : Reply}
    {items : Keyspace} (hmem : s.digest ∈ server.loaded) (hrun : p.run now given server.items = (r, items)) :
    call now s.digest given server = (r, { server with items := items }) := by
  rw [call, if_pos hmem, hruns.routine]
  simp only [hrun]

/-- A script of the client is run, whether or not the server knew it. -/
theorem hold_runScript {s : Script} {p : Routine} (hruns : s.Runs p) {server : Server} {key : String}
    {arguments : List String} {r : Reply} {items : Keyspace}
    (hrun : p.run now ⟨[key], arguments⟩ server.items = (r, items)) (hr : r.isNoScript = false)
    (hlegible : r.isLegible = true) :
    ∃ loaded, (client.runScript s key arguments read).hold (answer now) server = (read r, ⟨items, loaded⟩) := by
  have hcall : ∀ server : Server,
      execute now (s.call key arguments) server = call now s.digest ⟨[key], arguments⟩ server := fun _ => rfl
  by_cases hmem : s.digest ∈ server.loaded
  · refine ⟨server.loaded, ?_⟩
    have honly : execute now (s.call key arguments) server = (r, { server with items := items }) := by
      rw [hcall, call_of_mem hruns hmem hrun]
    rw [Client.runScript, hold_connect, hold_command _ _ honly hlegible, if_neg (Bool.not_eq_true _ ▸ hr), hold_done]
  · refine ⟨s.digest :: server.loaded, ?_⟩
    let later : Server := { server with loaded := s.digest :: server.loaded }
    have hfirst : execute now (s.call key arguments) server = (.noScript, server) := by
      rw [hcall, call, if_neg hmem]
    have hload : execute now s.load server = (.bulk s.digest.toUTF8, later) := by
      show (_, _) = _
      rw [hruns.digest]
    have hknown : s.digest ∈ later.loaded := List.mem_cons_self
    have hsecond : execute now (s.call key arguments) later = (r, { later with items := items }) :=
      (hcall later).trans (call_of_mem hruns hknown hrun)
    rw [Client.runScript, hold_connect, hold_command _ _ hfirst rfl, if_pos Reply.isNoScript_noScript,
      hold_command _ _ hload rfl]
    exact hold_command _ _ hsecond hlegible

end Server

end Coordination.Remote
