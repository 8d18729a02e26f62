import Coordination.Proofs.Remote.Cells

/-! # The stores agree

A client of a server gives the same answers as the store in memory, whatever it is asked for. Of failures only the kinds
are the same, since a server words them in its own way. Instants and lifetimes have to be whole milliseconds, and numbers
have to be written as both stores read them; a sum that comes through a script has to be exact as a floating-point number.
-/
namespace Coordination.Remote
open Store (Cell Entry Memory Request)
open Duration (nanosPerMilli)

/-- A request and its instant in whole milliseconds; its lifetime, if it has one, ends before either clock does. -/
structure Measured (origin : Nat) (now : Instant) (r : Request) : Prop where
  instant : nanosPerMilli ∣ now.nanos
  lifetime : ∀ ttl, r.ttl? = some ttl → nanosPerMilli ∣ ttl.nanos
  ends : ∀ ttl, r.ttl? = some ttl → (now.add? ttl).isSome ∧ clockAt origin now + ttl.millis ≤ clockEnd

instance (origin : Nat) (now : Instant) (r : Request) : Decidable (Measured origin now r) :=
  decidable_of_iff (nanosPerMilli ∣ now.nanos ∧ (∀ ttl, r.ttl? = some ttl → nanosPerMilli ∣ ttl.nanos) ∧
      ∀ ttl, r.ttl? = some ttl → (now.add? ttl).isSome ∧ clockAt origin now + ttl.millis ≤ clockEnd)
    ⟨fun h => ⟨h.1, h.2.1, h.2.2⟩, fun h => ⟨h.instant, h.lifetime, h.ends⟩⟩

def answered? {α : Type} : Except Store.Crash (Except Failure α) → Option α
  | .ok (.ok a) => some a
  | _ => none

/-- An increment adds a number of 64 bits, and it finds a number only where both stores do. With a lifetime the sum is
exact as a floating-point number. -/
structure Addable (m : Memory) (now : Instant) (key : String) (amount : Int) (ttl : Option Duration) : Prop where
  fits : Memory.counterBounds.contains amount = true
  value : ∀ e, m.visible? now key = some e → Canonical e.value
  sum : ttl.isSome →
    ∀ n, answered? (m.serve now (.increment key amount ttl)).1 = some n → Int.natAbs n ≤ exactBound

instance (m : Memory) (now : Instant) (key : String) (amount : Int) (ttl : Option Duration) :
    Decidable (Addable m now key amount ttl) :=
  decidable_of_iff (Memory.counterBounds.contains amount = true ∧
      (∀ e, m.visible? now key = some e → Canonical e.value) ∧
      (ttl.isSome →
        ∀ n, answered? (m.serve now (.increment key amount ttl)).1 = some n → Int.natAbs n ≤ exactBound))
    ⟨fun h => ⟨h.1, h.2.1, h.2.2⟩, fun h => ⟨h.fits, h.value, h.sum⟩⟩

/-- What the request adds to and what it adds are numbers that both stores count with. -/
def Comparable (m : Memory) (now : Instant) : Request → Prop
  | .increment key amount ttl => Addable m now key amount ttl
  | _ => True

instance (m : Memory) (now : Instant) : (r : Request) → Decidable (Comparable m now r)
  | .increment key amount ttl => inferInstanceAs (Decidable (Addable m now key amount ttl))
  | .ping | .setIfAbsent .. | .get _ | .set .. | .delete _ | .ttlRemaining _ | .compareAndDelete .. => isTrue trivial

structure Answer where
  request : Request
  result : Except Store.Crash (Except Failure.Kind request.Reply)

def Answer.of (r : Request) (result : Except Store.Crash (Except Failure r.Reply)) : Answer :=
  ⟨r, result.map fun x => x.mapError Failure.kind⟩

section Requests
variable {origin : Nat} {now : Instant} {client : Client} {server : Server} {m : Memory} {r : Request}

/-- What is seen in the memory is what the server keeps, with no deadline past the end of its clock. -/
structure Mirrors (m : Memory) (origin : Nat) (now : Instant) (items : Keyspace) : Prop where
  shows : ∀ key, m.Shows now key (items.cell origin key)
  inTime : items.InTime

theorem Mirrors.value (h : Mirrors m origin now server.items) (hnow : nanosPerMilli ∣ now.nanos) {key : String}
    (hvalue : ∀ e, m.visible? now key = some e → Canonical e.value) {item : Item}
    (hlive : server.items.live? (clockAt origin now) key = some item) : Canonical item.value := by
  have hvisible : m.visible? now key = some (item.entry origin) := by
    rw [h.shows key now (Nat.le_refl _), Keyspace.live_cell hnow, hlive]
    rfl
  exact hvalue _ hvisible

/-- A conversation comes to what the cell of a key comes to, and no deadline after it is past the end of the clock. -/
def Comes {α : Type} (origin : Nat) (now : Instant) (server : Server) (key : String) (served : Cell.Served α)
    (conversation : Exchange (Except Failure α)) : Prop :=
  ∃ reply after, conversation.hold (Server.answer (clockAt origin now)) server = (reply, after) ∧
    server.items.Agrees origin key served reply after.items ∧ after.items.InTime

section Conversations
variable {α : Type} {key : String} {served : Cell.Served α} {read : Reply → Except Failure α}
  (hintime : server.items.InTime)
include hintime

theorem comes_query {c : Command} {reply : Reply} {after : Keyspace}
    (hrun : server.items.run (clockAt origin now) c = (reply, after))
    (hexecute : Server.execute (clockAt origin now) c server = (reply, { server with items := after }))
    (hagrees : server.items.Agrees origin key served (read reply) after) :
    Comes origin now server key served (client.query c read) := by
  have hsound := hrun ▸ hintime.run (clockAt origin now) c
  exact ⟨_, _, Server.hold_query hexecute hsound.legible, hagrees, hsound.inTime⟩

theorem comes_script {s : Script} {p : Routine} (hruns : s.Runs p) {arguments : List String} {reply : Reply}
    {after : Keyspace} (hrun : p.run (clockAt origin now) ⟨[key], arguments⟩ server.items = (reply, after))
    (hknown : reply.isNoScript = false) (hlegible : reply.isLegible = true)
    (hagrees : server.items.Agrees origin key served (read reply) after) :
    Comes origin now server key served (client.runScript s key arguments read) := by
  obtain ⟨loaded, hhold⟩ := Server.hold_runScript hruns hrun hknown hlegible
  have hkept : (p.run (clockAt origin now) ⟨[key], arguments⟩ server.items).2.InTime := keeps_run p _ hintime
  rw [hrun] at hkept
  exact ⟨_, _, hhold, hagrees, hkept⟩

end Conversations

/-- The conversation of a request comes to what the cell of its key comes to. -/
theorem comes_converse (h : Mirrors m origin now server.items) (hmeasured : Measured origin now r)
    (hcomparable : Comparable m now r) (hlong : r.checkTtl = .ok ()) {key : String} (hr : r.key? = some key) :
    Comes origin now server key ((server.items.cell origin key).perform now r) (client.converse r) := by
  have hnow := hmeasured.instant
  cases r with
  | ping => cases hr
  | get _ =>
    cases hr
    exact comes_query h.inTime rfl rfl (Keyspace.get_agrees hnow)
  | delete _ =>
    cases hr
    exact comes_query h.inTime rfl rfl (Keyspace.del_agrees hnow)
  | ttlRemaining _ =>
    cases hr
    exact comes_query h.inTime rfl rfl (Keyspace.pttl_agrees hnow)
  | set _ value ttl =>
    cases hr
    cases ttl with
    | none => exact comes_query h.inTime rfl rfl (Keyspace.set_agrees now value)
    | some ttl =>
      exact comes_query h.inTime rfl rfl (Keyspace.setFor_agrees hnow (Store.checkTtl_eq_ok.1 hlong)
        (hmeasured.lifetime ttl rfl) (hmeasured.ends ttl rfl) value)
  | setIfAbsent _ value ttl =>
    cases hr
    exact comes_query h.inTime rfl rfl (Keyspace.setAbsentFor_agrees hnow (Store.checkTtl_eq_ok.1 hlong)
      (hmeasured.lifetime ttl rfl) (hmeasured.ends ttl rfl) value)
  | compareAndDelete _ expected =>
    cases hr
    obtain ⟨r, items, hrun, hknown, hlegible, hagrees⟩ := Keyspace.run_compareAndDelete_agrees hnow expected
    exact comes_script h.inTime Script.compareAndDelete_runs hrun hknown hlegible hagrees
  | increment _ amount ttl =>
    cases hr
    have hvalue : ∀ item, server.items.live? (clockAt origin now) key = some item → Canonical item.value :=
      fun _ => h.value hnow hcomparable.value
    cases ttl with
    | none => exact comes_query h.inTime rfl rfl (Keyspace.incrBy_agrees hnow hcomparable.fits hvalue)
    | some ttl =>
      have hexact : ∀ n : Int, ((server.items.cell origin key).increment now key amount (some ttl)).1 = .ok (.ok n) →
          n.natAbs ≤ exactBound := by
        intro n hn
        have hagrees := Memory.serve_agrees (h.shows key) (r := .increment key amount (some ttl)) rfl
        rw [Cell.serve_eq_perform _ now hlong] at hagrees
        exact hcomparable.sum rfl n (by rw [hagrees.outcome.trans hn]; rfl)
      obtain ⟨r, items, hrun, hknown, hlegible, hagrees⟩ :=
        Keyspace.run_increment_agrees hnow (Store.checkTtl_eq_ok.1 hlong) (hmeasured.lifetime ttl rfl)
          (hmeasured.ends ttl rfl) hcomparable.fits hvalue hexact
      exact comes_script h.inTime Script.increment_runs hrun hknown hlegible hagrees

theorem Mirrors.serve (h : Mirrors m origin now server.items) (hmeasured : Measured origin now r)
    (hcomparable : Comparable m now r) (client : Client) :
    Answer.of r (m.serve now r).1 = Answer.of r (.ok (server.serve client (clockAt origin now) r).1) ∧
      Mirrors (m.serve now r).2 origin now (server.serve client (clockAt origin now) r).2.items := by
  cases hlong : r.checkTtl with
  | error e =>
    have hm : m.serve now r = (.ok (.error e), m) := by
      rw [Memory.serve, hlong]
      rfl
    have hserver : server.serve client (clockAt origin now) r = (.error e, server) := by
      rw [Server.serve, Client.request, hlong, Server.hold_done]
    rw [hm, hserver]
    exact ⟨rfl, h⟩
  | ok _ =>
    have hserver : server.serve client (clockAt origin now) r =
        (client.converse r).hold (Server.answer (clockAt origin now)) server := by
      rw [Server.serve, Client.request, hlong]
    cases hkey : r.key? with
    | none =>
      cases r with
      | ping =>
        have hpong : (client.converse .ping).hold (Server.answer (clockAt origin now)) server = (.ok (), server) :=
          Server.hold_query rfl rfl
        rw [hserver, hpong]
        exact ⟨rfl, h⟩
      | _ => cases hkey
    | some key =>
      obtain ⟨reply, after, hhold, hagrees, hafter⟩ := comes_converse h hmeasured hcomparable hlong hkey
      have hcell := Memory.serve_agrees (h.shows key) hkey
      rw [Cell.serve_eq_perform _ now hlong] at hcell
      obtain ⟨x, hx, hkinds⟩ := hagrees.outcome
      rw [hserver, hhold]
      refine ⟨?_, ?_, hafter⟩
      · rw [hcell.outcome, hx]
        exact congrArg (fun result => (⟨r, .ok result⟩ : Answer)) hkinds
      · intro other
        by_cases hne : other = key
        · subst hne
          rw [hagrees.cell]
          exact hcell.shows
        · have hother : after.items.cell origin other = server.items.cell origin other := by
            rw [Keyspace.cell, hagrees.frame other hne, ← Keyspace.cell]
          rw [hother]
          exact hcell.frame.shows hne (h.shows other)

end Requests

def memoryAnswers (m : Memory) : List (Instant × Request) → List Answer
  | [] => []
  | (now, r) :: rest => .of r (m.serve now r).1 :: memoryAnswers (m.serve now r).2 rest

def serverAnswers (client : Client) (origin : Nat) (server : Server) : List (Instant × Request) → List Answer
  | [] => []
  | (now, r) :: rest =>
    .of r (.ok (server.serve client (clockAt origin now) r).1) ::
      serverAnswers client origin (server.serve client (clockAt origin now) r).2 rest

/-- Each of the requests is comparable where the memory comes to it. -/
def ComparableAll (m : Memory) : List (Instant × Request) → Prop
  | [] => True
  | (now, r) :: rest => Comparable m now r ∧ ComparableAll (m.serve now r).2 rest

instance decidableComparableAll (m : Memory) :
    (requests : List (Instant × Request)) → Decidable (ComparableAll m requests)
  | [] => isTrue trivial
  | (now, r) :: rest =>
    have := decidableComparableAll (m.serve now r).2 rest
    inferInstanceAs (Decidable (Comparable m now r ∧ ComparableAll (m.serve now r).2 rest))

theorem Mirrors.answers {m : Memory} {origin : Nat} {now : Instant} {server : Server} {client : Client}
    {requests : List (Instant × Request)} (h : Mirrors m origin now server.items)
    (hfrom : ∀ x ∈ requests, now.nanos ≤ x.1.nanos)
    (hsorted : requests.Pairwise fun x y => x.1.nanos ≤ y.1.nanos)
    (hmeasured : ∀ x ∈ requests, Measured origin x.1 x.2) (hcomparable : ComparableAll m requests) :
    memoryAnswers m requests = serverAnswers client origin server requests := by
  induction requests generalizing m now server with
  | nil => rfl
  | cons x rest ih =>
    obtain ⟨t, r⟩ := x
    obtain ⟨ht, _⟩ := List.forall_mem_cons.1 hfrom
    obtain ⟨hle, hsorted⟩ := List.pairwise_cons.1 hsorted
    obtain ⟨hx, hmeasured⟩ := List.forall_mem_cons.1 hmeasured
    have hlater : Mirrors m origin t server.items := ⟨fun key => (h.shows key).later ht, h.inTime⟩
    obtain ⟨hanswer, hmirrors⟩ := hlater.serve hx hcomparable.1 client
    rw [memoryAnswers, serverAnswers, hanswer, ih hmirrors hle hsorted hmeasured hcomparable.2]

/-- A client of a server and the store in memory give the same answers to all requests, and fail in the same cases with
failures of the same kind, whatever scripts the server knew at the start. -/
theorem server_answers_as_memory (client : Client) (origin : Nat) (loaded : List String)
    (requests : List (Instant × Request)) (hsorted : requests.Pairwise fun x y => x.1.nanos ≤ y.1.nanos)
    (hmeasured : ∀ x ∈ requests, Measured origin x.1 x.2) (hcomparable : ComparableAll .empty requests) :
    serverAnswers client origin ⟨.empty, loaded⟩ requests = memoryAnswers .empty requests := by
  have hempty : Mirrors .empty origin ⟨0⟩ .empty := ⟨fun key later _ => rfl, Keyspace.inTime_empty⟩
  exact (Mirrors.answers hempty (fun _ _ => Nat.zero_le _) hsorted hmeasured hcomparable).symm

/-- A lock, a counter that expires, one that gets its lifetime late, a text that is no number, and a lifetime of zero. -/
def mixedRequests : List (Instant × Request) := [
  (⟨0⟩, .setIfAbsent "lock" "me" (.ofMillis 100)),
  (⟨0⟩, .increment "visits" 2 (some (.ofMillis 50))),
  (⟨1000000⟩, .setIfAbsent "lock" "you" (.ofMillis 100)),
  (⟨1000000⟩, .increment "visits" (-5) (some (.ofMillis 50))),
  (⟨1000000⟩, .increment "total" 1 none),
  (⟨2000000⟩, .increment "total" 1 (some (.ofMillis 10))),
  (⟨2000000⟩, .ttlRemaining "total"),
  (⟨3000000⟩, .set "name" "abc" none),
  (⟨3000000⟩, .increment "name" 1 (some (.ofMillis 10))),
  (⟨3000000⟩, .compareAndDelete "lock" "you"),
  (⟨4000000⟩, .compareAndDelete "lock" "me"),
  (⟨4000000⟩, .set "name" "def" (some .zero)),
  (⟨50000000⟩, .get "visits"),
  (⟨50000000⟩, .increment "visits" 1 (some (.ofMillis 50))),
  (⟨50000000⟩, .delete "total")]

def localClient : Client := ⟨⟨.tcp "localhost" 6379, 0, none, none, .resp2⟩, .ofSeconds 1⟩

theorem mixed_answers_as_memory :
    (mixedRequests.Pairwise fun x y => x.1.nanos ≤ y.1.nanos) ∧
      (∀ x ∈ mixedRequests, Measured 1700000000000 x.1 x.2) ∧
      ComparableAll .empty mixedRequests ∧
      serverAnswers localClient 1700000000000 ⟨.empty, [Script.increment.digest]⟩ mixedRequests =
        memoryAnswers .empty mixedRequests := by
  have hsorted : mixedRequests.Pairwise fun x y => x.1.nanos ≤ y.1.nanos := by decide +kernel
  have hmeasured : ∀ x ∈ mixedRequests, Measured 1700000000000 x.1 x.2 := by decide +kernel
  have hcomparable : ComparableAll .empty mixedRequests := by decide +kernel
  exact ⟨hsorted, hmeasured, hcomparable,
    server_answers_as_memory localClient _ _ mixedRequests hsorted hmeasured hcomparable⟩

end Coordination.Remote
