import Coordination.Bounds
import Coordination.Store.Entries
import Coordination.Store.Request

/-! # The store in memory

One map from keys to entries, of which some may have expired. An expired entry is dropped when its key is
next used and by a sweep after every 256 writes of a new entry; until then it is only invisible. Neither changes
what can be seen from then on, and a write changes it under its own key only. A request whose deadline lies past the
end of the clock crashes.
-/
namespace Coordination.Store

/-- The end of a program that no failure describes. -/
inductive Crash where
  | deadlinePastClock
deriving DecidableEq, Repr

def Crash.message : Crash → String
  | .deadlinePastClock => "overflow when adding duration to instant"

/-- The entries, and the number of writes since the last sweep. -/
structure Memory where
  entries : Entries
  writesSinceSweep : Nat
deriving DecidableEq, Repr

namespace Memory

def sweepInterval : Nat := 256

def counterBounds : Bounds := Bounds.signed 64

def empty : Memory := ⟨.empty, 0⟩

/-- The live entry under a key, without a trace of the look. -/
def visible? (m : Memory) (now : Instant) (key : String) : Option Entry := m.entries.visible? now key

def erase (m : Memory) (key : String) : Memory := { m with entries := m.entries.erase key }

/-- Changes what is kept under a key without counting as a write. -/
def put (m : Memory) (key : String) (e : Entry) : Memory := { m with entries := m.entries.put key e }

def sweep (m : Memory) (now : Instant) : Memory := ⟨m.entries.keepLive now, 0⟩

def insert (m : Memory) (now : Instant) (key : String) (e : Entry) : Memory :=
  let written : Memory := ⟨m.entries.put key e, m.writesSinceSweep + 1⟩
  if sweepInterval ≤ written.writesSinceSweep then written.sweep now else written

/-- The live entry under a key; an expired one is dropped. -/
def live (m : Memory) (now : Instant) (key : String) : Option Entry × Memory :=
  match m.visible? now key with
  | some e => (some e, m)
  | none => (none, m.erase key)

/-! ## What can be seen -/

@[simp] theorem visible?_empty (now : Instant) (key : String) : empty.visible? now key = none := rfl

theorem visible?_erase (m : Memory) (now : Instant) (key other : String) :
    (m.erase key).visible? now other = if other = key then none else m.visible? now other :=
  m.entries.visible?_erase now key other

theorem visible?_put (m : Memory) (now : Instant) (key other : String) (e : Entry) :
    (m.put key e).visible? now other =
      if other = key then (some e).filter fun e => e.isLive now else m.visible? now other :=
  m.entries.visible?_put now key other e

theorem visible?_insert (m : Memory) {now later : Instant} (h : now.nanos ≤ later.nanos) (key other : String)
    (e : Entry) :
    (m.insert now key e).visible? later other =
      if other = key then (some e).filter fun e => e.isLive later else m.visible? later other := by
  have hput := visible?_put m later key other e
  simp only [insert]
  split
  · rw [← hput]
    exact (m.entries.put key e).visible?_keepLive h other
  · exact hput

@[simp] theorem live_fst (m : Memory) (now : Instant) (key : String) :
    (m.live now key).1 = m.visible? now key := by
  unfold live
  split
  · next h => exact h.symm
  · next h => exact h.symm

/-- Looking at a key changes nothing that can be seen from now on. -/
theorem visible?_live (m : Memory) {now later : Instant} (h : now.nanos ≤ later.nanos) (key other : String) :
    (m.live now key).2.visible? later other = m.visible? later other := by
  unfold live
  split
  · rfl
  · next hnone => exact m.entries.visible?_erase_dead h hnone other

/-! ## Serving requests -/

def size (m : Memory) (now : Instant) : Nat := m.entries.countLive now

def deadline (now : Instant) : Option Duration → Except Crash (Option Instant)
  | none => .ok none
  | some ttl =>
    match now.add? ttl with
    | some t => .ok (some t)
    | none => .error .deadlinePastClock

/-- What a request comes to, and the memory after it. -/
abbrev Served (α : Type) := Except Crash (Except Failure α) × Memory

def answer {α : Type} (a : α) (m : Memory) : Served α := (.ok (.ok a), m)

def refuse {α : Type} (e : Failure) (m : Memory) : Served α := (.ok (.error e), m)

def crash {α : Type} (c : Crash) (m : Memory) : Served α := (.error c, m)

def setIfAbsent (m : Memory) (now : Instant) (key value : String) (ttl : Duration) : Served Bool :=
  match m.live now key with
  | (some _, m) => answer false m
  | (none, m) =>
    match deadline now (some ttl) with
    | .error c => crash c m
    | .ok at? => answer true (m.insert now key ⟨value, at?⟩)

def get (m : Memory) (now : Instant) (key : String) : Served (Option String) :=
  let (e?, m) := m.live now key
  answer (e?.map Entry.value) m

def set (m : Memory) (now : Instant) (key value : String) (ttl : Option Duration) : Served Unit :=
  match deadline now ttl with
  | .error c => crash c m
  | .ok at? => answer () (m.insert now key ⟨value, at?⟩)

def delete (m : Memory) (now : Instant) (key : String) : Served Bool :=
  let (e?, m) := m.live now key
  answer e?.isSome (m.erase key)

/-- The sum that an increment writes, if the value is an integer and the sum within bounds. -/
def sum (key value : String) (amount : Int) : Except Failure Int :=
  match Text.Integer.parse counterBounds value with
  | .error _ => .error (.internal (.notAnInteger key))
  | .ok n => if counterBounds.contains (n + amount) then .ok (n + amount) else .error (.internal (.overflow key))

/-- Adds to the live value of a key. The sum is written first and keeps its deadline; only where there was
none is one set after that. -/
def raise (m : Memory) (now : Instant) (key : String) (e : Entry) (amount : Int) (ttl : Option Duration) :
    Served Int :=
  match sum key e.value amount with
  | .error failure => refuse failure m
  | .ok n =>
    let written := m.put key ⟨toString n, e.expiresAt⟩
    match e.expiresAt with
    | some _ => answer n written
    | none =>
      match deadline now ttl with
      | .error c => crash c written
      | .ok at? => answer n (m.put key ⟨toString n, at?⟩)

def increment (m : Memory) (now : Instant) (key : String) (amount : Int) (ttl : Option Duration) : Served Int :=
  match m.live now key with
  | (some e, m) => m.raise now key e amount ttl
  | (none, m) =>
    match deadline now ttl with
    | .error c => crash c m
    | .ok at? => answer amount (m.insert now key ⟨toString amount, at?⟩)

def ttlRemaining (m : Memory) (now : Instant) (key : String) : Served (Option Duration) :=
  let (e?, m) := m.live now key
  let left := (e?.bind Entry.expiresAt).map fun deadline => deadline.timeLeft now
  answer (left.filter fun d => !d.isZero) m

def compareAndDelete (m : Memory) (now : Instant) (key expected : String) : Served Bool :=
  match m.live now key with
  | (some e, m) => if e.value = expected then answer true (m.erase key) else answer false m
  | (none, m) => answer false m

/-- What a request does, its lifetime taken as it is. -/
def perform (m : Memory) (now : Instant) : (r : Request) → Served r.Reply
  | .ping => answer () m
  | .setIfAbsent key value ttl => m.setIfAbsent now key value ttl
  | .get key => m.get now key
  | .set key value ttl => m.set now key value ttl
  | .delete key => m.delete now key
  | .increment key amount ttl => m.increment now key amount ttl
  | .ttlRemaining key => m.ttlRemaining now key
  | .compareAndDelete key expected => m.compareAndDelete now key expected

/-- Serves a request at an instant. A lifetime that is too short is refused before anything is looked at. -/
def serve (m : Memory) (now : Instant) (r : Request) : Served r.Reply :=
  match r.checkTtl with
  | .error e => refuse e m
  | .ok () => m.perform now r

end Memory

end Coordination.Store
