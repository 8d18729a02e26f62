import Coordination.Remote.Client

/-! # The keys of a store server

What the commands of a client do on a server. Texts are kept under keys, each up to a millisecond of the server's own
clock from which on it is gone, if there is one. A text counts as a number only in the form in which that number is
written. A command that fails changes nothing.
-/
namespace Coordination.Remote

/-- A text with the millisecond from which on it is gone, if there is one. -/
structure Item where
  value : String
  deadline : Option Nat
deriving DecidableEq, Repr

def Item.isLive (now : Nat) (item : Item) : Bool :=
  match item.deadline with
  | none => true
  | some deadline => now < deadline

abbrev Keyspace := String → Option Item

namespace Keyspace

def empty : Keyspace := fun _ => none

def live? (items : Keyspace) (now : Nat) (key : String) : Option Item :=
  (items key).filter fun item => item.isLive now

def put (items : Keyspace) (key : String) (item : Item) : Keyspace :=
  fun other => if other = key then some item else items other

def erase (items : Keyspace) (key : String) : Keyspace := fun other => if other = key then none else items other

theorem live?_put (items : Keyspace) {now : Nat} (key : String) {item : Item} (h : item.isLive now = true) :
    (items.put key item).live? now key = some item := by
  simp [live?, put, Option.filter, h]

theorem put_put (items : Keyspace) (key : String) (item last : Item) :
    (items.put key item).put key last = items.put key last := by
  funext other
  unfold put
  split <;> rfl

end Keyspace

namespace Reply

def notAnInteger : Reply := .error "ERR value is not an integer or out of range"

def overflow : Reply := .error "ERR increment or decrement would overflow"

def invalidExpire (command : String) : Reply := .error s!"ERR invalid expire time in '{command}' command"

def unknownCommand : Reply := .error "ERR unknown command"

end Reply

/-- The number that a text stands for, which is written like that. -/
def readInteger? (text : String) : Option Int :=
  match Text.Integer.parse Reply.integerBounds text with
  | .ok n => if toString n = text then some n else none
  | .error _ => none

def clockEnd : Int := Reply.integerBounds.high

/-- The deadline of a lifetime that a command writes with. -/
def deadlineAfter (now : Nat) (command lifetime : String) : Except Reply Nat :=
  match readInteger? lifetime with
  | none => .error .notAnInteger
  | some ms => if 0 < ms ∧ now + ms ≤ clockEnd then .ok (now + ms).toNat else .error (.invalidExpire command)

namespace Keyspace
variable (items : Keyspace) (now : Nat) (key : String)

def get : Reply × Keyspace :=
  match items.live? now key with
  | some item => (.bulk item.value.toUTF8, items)
  | none => (.nil, items)

def set (value : String) : Reply × Keyspace := (.status "OK", items.put key ⟨value, none⟩)

def setFor (value lifetime : String) : Reply × Keyspace :=
  match deadlineAfter now "set" lifetime with
  | .error r => (r, items)
  | .ok deadline => (.status "OK", items.put key ⟨value, some deadline⟩)

def setAbsentFor (value lifetime : String) : Reply × Keyspace :=
  match deadlineAfter now "set" lifetime with
  | .error r => (r, items)
  | .ok deadline =>
    match items.live? now key with
    | some _ => (.nil, items)
    | none => (.status "OK", items.put key ⟨value, some deadline⟩)

def del : Reply × Keyspace :=
  match items.live? now key with
  | some _ => (.integer 1, items.erase key)
  | none => (.integer 0, items.erase key)

/-- Adds to a number, which keeps its deadline; no item counts as zero without one. -/
def incrBy (amount : String) : Reply × Keyspace :=
  let item := (items.live? now key).getD ⟨"0", none⟩
  match readInteger? amount, readInteger? item.value with
  | some amount, some n =>
    if Reply.integerBounds.contains (n + amount) then
      (.integer (n + amount), items.put key { item with value := toString (n + amount) })
    else (.overflow, items)
  | _, _ => (.notAnInteger, items)

/-- The milliseconds that are left to an item, or a negative number. -/
def pttl : Reply × Keyspace :=
  match items.live? now key with
  | none => (.integer (-2), items)
  | some ⟨_, none⟩ => (.integer (-1), items)
  | some ⟨_, some deadline⟩ => (.integer (deadline - now), items)

def pexpire (lifetime : String) : Reply × Keyspace :=
  match readInteger? lifetime with
  | none => (.notAnInteger, items)
  | some ms =>
    if clockEnd < now + ms then (.invalidExpire "pexpire", items)
    else
      match items.live? now key with
      | none => (.integer 0, items)
      | some item =>
        if 0 < ms then (.integer 1, items.put key { item with deadline := some (now + ms).toNat })
        else (.integer 1, items.erase key)

theorem pttl_put_endless (value : String) :
    (items.put key ⟨value, none⟩).pttl now key = (.integer (-1), items.put key ⟨value, none⟩) := by
  rw [pttl, live?_put items key rfl]

theorem pttl_put_until (value : String) {now deadline : Nat} (h : now < deadline) :
    (items.put key ⟨value, some deadline⟩).pttl now key =
      (.integer (deadline - now), items.put key ⟨value, some deadline⟩) := by
  have hlive : Item.isLive now ⟨value, some deadline⟩ = true := decide_eq_true h
  rw [pttl, live?_put items key hlive]

def run : Command → Reply × Keyspace
  | ["PING"] => (.status "PONG", items)
  | ["GET", key] => items.get now key
  | ["SET", key, value] => items.set key value
  | ["SET", key, value, "PX", lifetime] => items.setFor now key value lifetime
  | ["SET", key, value, "NX", "PX", lifetime] => items.setAbsentFor now key value lifetime
  | ["DEL", key] => items.del now key
  | ["INCRBY", key, amount] => items.incrBy now key amount
  | ["PTTL", key] => items.pttl now key
  | ["PEXPIRE", key, lifetime] => items.pexpire now key lifetime
  | _ => (.unknownCommand, items)

end Keyspace

theorem Reply.isLegible_integer (n : Int) : (integer n).isLegible = integerBounds.contains n := by
  unfold isLegible first?
  cases h : integerBounds.contains n <;> simp [h]

theorem deadlineAfter_le {now deadline : Nat} {command lifetime : String}
    (h : deadlineAfter now command lifetime = .ok deadline) : (deadline : Int) ≤ clockEnd := by
  unfold deadlineAfter at h
  split at h
  · cases h
  · split at h
    · next hfits =>
      cases h
      omega
    · cases h

theorem isLegible_of_deadlineAfter {now : Nat} {command lifetime : String} {r : Reply}
    (h : deadlineAfter now command lifetime = .error r) : r.isLegible = true := by
  unfold deadlineAfter at h
  split at h
  · cases h
    rfl
  · split at h <;> cases h
    rfl

def Item.InTime (item : Item) : Prop := ∀ deadline, item.deadline = some deadline → (deadline : Int) ≤ clockEnd

namespace Keyspace

/-- No deadline is past the end of the clock. -/
def InTime (items : Keyspace) : Prop := ∀ key item, items key = some item → item.InTime

/-- A reply that can be read, with keys whose deadlines are in time. -/
structure Sound (result : Reply × Keyspace) : Prop where
  legible : result.1.isLegible = true
  inTime : result.2.InTime

variable {items : Keyspace} {now : Nat} {key : String} {item : Item}

theorem lt_of_live? {value : String} {deadline : Nat} (h : items.live? now key = some ⟨value, some deadline⟩) :
    now < deadline := by
  have hlive := (Option.filter_eq_some_iff.1 h).2
  exact of_decide_eq_true hlive

theorem inTime_empty : empty.InTime := by
  intro key item h
  cases h

theorem InTime.put (h : items.InTime) (key : String) (hitem : item.InTime) : (items.put key item).InTime := by
  intro other kept hkept
  unfold Keyspace.put at hkept
  split at hkept
  · cases hkept
    exact hitem
  · exact h other kept hkept

theorem InTime.erase (h : items.InTime) (key : String) : (items.erase key).InTime := by
  intro other kept hkept
  unfold Keyspace.erase at hkept
  split at hkept
  · cases hkept
  · exact h other kept hkept

theorem InTime.live (h : items.InTime) (hlive : items.live? now key = some item) : item.InTime :=
  h key item (Option.filter_eq_some_iff.1 hlive).1

section Commands
variable (h : items.InTime)
include h

theorem InTime.get : Sound (items.get now key) := by
  unfold Keyspace.get
  split <;> exact ⟨rfl, h⟩

theorem InTime.set (key value : String) : Sound (items.set key value) := by
  refine ⟨rfl, h.put key ?_⟩
  intro deadline hdeadline
  cases hdeadline

theorem InTime.setFor (value lifetime : String) : Sound (items.setFor now key value lifetime) := by
  unfold Keyspace.setFor
  split
  · next hlifetime => exact ⟨isLegible_of_deadlineAfter hlifetime, h⟩
  · next deadline hlifetime =>
    refine ⟨rfl, h.put key ?_⟩
    rintro _ ⟨⟩
    exact deadlineAfter_le hlifetime

theorem InTime.setAbsentFor (value lifetime : String) : Sound (items.setAbsentFor now key value lifetime) := by
  unfold Keyspace.setAbsentFor
  split
  · next hlifetime => exact ⟨isLegible_of_deadlineAfter hlifetime, h⟩
  · next deadline hlifetime =>
    split
    · exact ⟨rfl, h⟩
    · refine ⟨rfl, h.put key ?_⟩
      rintro _ ⟨⟩
      exact deadlineAfter_le hlifetime

theorem InTime.del : Sound (items.del now key) := by
  unfold Keyspace.del
  split <;> exact ⟨rfl, h.erase key⟩

theorem InTime.incrBy (amount : String) : Sound (items.incrBy now key amount) := by
  have hfound : ((items.live? now key).getD ⟨"0", none⟩).InTime := by
    cases hlive : items.live? now key with
    | none =>
      intro deadline hdeadline
      cases hdeadline
    | some item => exact h.live hlive
  unfold Keyspace.incrBy
  dsimp only
  split
  · split
    · next hfits => exact ⟨(Reply.isLegible_integer _).trans hfits, h.put key hfound⟩
    · exact ⟨rfl, h⟩
  · exact ⟨rfl, h⟩

theorem InTime.pttl : Sound (items.pttl now key) := by
  have hend : clockEnd = Reply.integerBounds.high := rfl
  have hlow : Reply.integerBounds.low ≤ 0 := by decide
  unfold Keyspace.pttl
  split
  · exact ⟨Reply.isLegible_integer _, h⟩
  · exact ⟨Reply.isLegible_integer _, h⟩
  · next value deadline hlive =>
    have hdeadline := h.live hlive deadline rfl
    have hlater := lt_of_live? hlive
    refine ⟨(Reply.isLegible_integer _).trans (Bounds.contains_iff.2 ?_), h⟩
    omega

theorem InTime.pexpire (lifetime : String) : Sound (items.pexpire now key lifetime) := by
  unfold Keyspace.pexpire
  split
  · exact ⟨rfl, h⟩
  · next ms _ =>
    split
    · exact ⟨rfl, h⟩
    · next hends =>
      split
      · exact ⟨rfl, h⟩
      · split
        · refine ⟨rfl, h.put key ?_⟩
          rintro _ ⟨⟩
          omega
        · exact ⟨rfl, h.erase key⟩

/-- What is answered to a command can be read, and no command makes a deadline that is past the end of the clock. -/
theorem InTime.run (now : Nat) (c : Command) : Sound (items.run now c) := by
  unfold Keyspace.run
  split
  · exact ⟨rfl, h⟩
  · exact h.get
  · exact h.set _ _
  · exact h.setFor _ _
  · exact h.setAbsentFor _ _
  · exact h.del
  · exact h.incrBy _
  · exact h.pttl
  · exact h.pexpire _
  · exact ⟨rfl, h⟩

end Commands

end Keyspace

end Coordination.Remote
