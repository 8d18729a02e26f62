import Coordination.Text.Utf8
import Coordination.Proofs.Remote.Server
import Coordination.Proofs.Store.Cell

/-! # What a server keeps under a key

The clock of a server counts milliseconds. As long as instants and lifetimes are whole milliseconds that both clocks can
hold, what a server keeps under a key is a cell of the store in memory, and each command and script comes to what the cell
comes to for the request that it is sent for.
-/
namespace Coordination

inductive Failure.Kind where
  | unavailable
  | serialization
  | internal
  | invalidArgument
  | configuration
deriving DecidableEq, Repr

def Failure.kind : Failure → Failure.Kind
  | .unavailable _ => .unavailable
  | .serialization _ => .serialization
  | .internal _ => .internal
  | .invalidArgument _ => .invalidArgument
  | .configuration _ => .configuration

namespace Remote
open Store (Cell Entry Memory Request)
open Duration (nanosPerMilli)

/-- What the clock of a server shows at an instant if it showed `origin` when the other clock started. -/
def clockAt (origin : Nat) (t : Instant) : Nat := origin + t.nanos / nanosPerMilli

def instantOf (origin deadline : Nat) : Instant := ⟨(deadline - origin) * nanosPerMilli⟩

section Clocks
variable {origin : Nat} {now : Instant} {ttl : Duration}

theorem lt_instantOf (hnow : nanosPerMilli ∣ now.nanos) (deadline : Nat) :
    now.nanos < (instantOf origin deadline).nanos ↔ clockAt origin now < deadline := by
  obtain ⟨ms, hms⟩ := hnow
  simp only [instantOf, clockAt, hms, nanosPerMilli]
  omega

theorem instantOf_add (hnow : nanosPerMilli ∣ now.nanos) (httl : nanosPerMilli ∣ ttl.nanos) :
    instantOf origin (clockAt origin now + ttl.millis) = now.advance ttl := by
  obtain ⟨ms, hms⟩ := hnow
  obtain ⟨ms', hms'⟩ := httl
  simp only [instantOf, clockAt, Instant.advance, Duration.millis, hms, hms', nanosPerMilli, Instant.mk.injEq]
  omega

theorem timeLeft_instantOf (hnow : nanosPerMilli ∣ now.nanos) (deadline : Nat) :
    (instantOf origin deadline).timeLeft now = .ofMillis (deadline - clockAt origin now) := by
  obtain ⟨ms, hms⟩ := hnow
  simp only [instantOf, clockAt, Instant.timeLeft, Duration.ofMillis, hms, nanosPerMilli, Duration.mk.injEq]
  omega

end Clocks

def Item.entry (origin : Nat) (item : Item) : Entry := ⟨item.value, item.deadline.map (instantOf origin)⟩

namespace Keyspace
variable {origin : Nat} {now : Instant} {key : String}

def cell (origin : Nat) (items : Keyspace) (key : String) : Cell := (items key).map (Item.entry origin)

theorem live_cell (hnow : nanosPerMilli ∣ now.nanos) (items : Keyspace) (key : String) :
    (cell origin items key).live now = (items.live? (clockAt origin now) key).map (Item.entry origin) := by
  have hlive : ∀ item : Item, (item.entry origin).isLive now = item.isLive (clockAt origin now) := by
    intro item
    obtain ⟨value, deadline⟩ := item
    cases deadline with
    | none => rfl
    | some d => exact decide_eq_decide.2 (lt_instantOf hnow d)
  unfold cell live?
  cases items key with
  | none => rfl
  | some item =>
    rw [Option.map_some, Cell.live_some, hlive]
    cases h : item.isLive (clockAt origin now) <;> simp [Option.filter, h]

theorem cell_put (items : Keyspace) (key : String) (item : Item) :
    cell origin (items.put key item) key = some (item.entry origin) := by
  rw [cell, put, if_pos rfl, Option.map_some]

theorem cell_erase (items : Keyspace) (key : String) : cell origin (items.erase key) key = none := by
  rw [cell, erase, if_pos rfl, Option.map_none]

end Keyspace

theorem readInteger?_toString {n : Int} (h : Reply.integerBounds.contains n = true) :
    readInteger? (toString n) = some n := by
  have hparse := Text.Integer.parse_toString (b := Reply.integerBounds) (by decide) h
  simp only [readInteger?, hparse, if_true]

/-- A text that is a number only if it is the text of that number. -/
def Canonical (value : String) : Prop :=
  ∀ n, Text.Integer.parse Memory.counterBounds value = .ok n → toString n = value

instance (value : String) : Decidable (Canonical value) :=
  match h : Text.Integer.parse Memory.counterBounds value with
  | .error _ => isTrue fun n hn => by rw [h] at hn; cases hn
  | .ok n =>
    decidable_of_iff (toString n = value)
      ⟨fun htext k hk => by cases h.symm.trans hk; exact htext, fun hcanonical => hcanonical n h⟩

theorem readInteger?_of_canonical {value : String} (h : Canonical value) :
    readInteger? value = (Text.Integer.parse Memory.counterBounds value).toOption := by
  have hbounds : Reply.integerBounds = Memory.counterBounds := rfl
  rw [readInteger?, hbounds]
  cases hparse : Text.Integer.parse Memory.counterBounds value with
  | error fault => rfl
  | ok n => simp only [h n hparse, if_true, Except.toOption]

section Lifetimes
variable {now : Nat} {ttl : Duration}

theorem readInteger?_ttlText (h : (ttl.millis : Int) ≤ clockEnd) :
    readInteger? (ttlText ttl) = some (ttl.millis : Int) := by
  have hend : clockEnd = 9223372036854775807 := by decide
  have hhigh : (Bounds.unsigned 64).high = 18446744073709551615 := by decide
  have hcapped : (Bounds.unsigned 64).capped ttl.millis = ttl.millis := by
    refine Bounds.capped_eq (Bounds.contains_iff.2 ⟨Int.natCast_nonneg _, ?_⟩)
    omega
  rw [ttlText, hcapped]
  have hlow : Reply.integerBounds.low ≤ 0 := by decide
  exact readInteger?_toString (Bounds.contains_iff.2 ⟨by omega, h⟩)

theorem deadlineAfter_ttlText (hlong : ttl.millis ≠ 0) (hends : now + ttl.millis ≤ clockEnd) (command : String) :
    deadlineAfter now command (ttlText ttl) = .ok (now + ttl.millis) := by
  have hms : (ttl.millis : Int) ≤ clockEnd := by omega
  have hfits : 0 < (ttl.millis : Int) ∧ (now : Int) + ttl.millis ≤ clockEnd := ⟨by omega, hends⟩
  rw [deadlineAfter, readInteger?_ttlText hms]
  exact (if_pos hfits).trans (congrArg Except.ok (by omega))

end Lifetimes

namespace Reply

theorem text_bulk (s : String) : (bulk s.toUTF8).text = .ok s := by
  rw [text, Text.Utf8.fromUTF8?_toUTF8]

theorem optionalText_bulk (s : String) : (bulk s.toUTF8).optionalText = .ok (some s) := by
  show some <$> (bulk s.toUTF8).text = _
  rw [text_bulk]
  rfl

end Reply

namespace Keyspace

theorem pexpire_put_endless {now : Nat} {ttl : Duration} (hlong : ttl.millis ≠ 0)
    (hends : now + ttl.millis ≤ clockEnd) (items : Keyspace) (key value : String) :
    (items.put key ⟨value, none⟩).pexpire now key (ttlText ttl) =
      (.integer 1, items.put key ⟨value, some (now + ttl.millis)⟩) := by
  have hms : (ttl.millis : Int) ≤ clockEnd := by omega
  have hpos : 0 < (ttl.millis : Int) := by omega
  have hdeadline : ((now : Int) + ttl.millis).toNat = now + ttl.millis := by omega
  rw [pexpire, readInteger?_ttlText hms, live?_put items key rfl]
  simp only [Int.not_lt.2 hends, if_false, hpos, if_true, hdeadline, put_put]

/-- A request comes to the same for the cell of its key as by the reply of a server, but for the cause of a failure. The
server then keeps under the key what the cell holds, and under other keys what it kept. -/
structure Agrees {α : Type} (origin : Nat) (items : Keyspace) (key : String) (served : Cell.Served α)
    (reply : Except Failure α) (after : Keyspace) : Prop where
  outcome : ∃ x, served.1 = .ok x ∧ x.mapError Failure.kind = reply.mapError Failure.kind
  cell : after.cell origin key = served.2
  frame : ∀ other, other ≠ key → after other = items other

section Commands
variable {α : Type} {origin : Nat} {now : Instant} {items : Keyspace} {key : String}

theorem agrees_kept (a : α) : Agrees origin items key (.ok (.ok a), items.cell origin key) (.ok a) items :=
  ⟨⟨_, rfl, rfl⟩, rfl, fun _ _ => rfl⟩

theorem agrees_refused {e f : Failure} (h : e.kind = f.kind) :
    Agrees (α := α) origin items key (.ok (.error e), items.cell origin key) (.error f) items :=
  ⟨⟨_, rfl, congrArg Except.error h⟩, rfl, fun _ _ => rfl⟩

theorem agrees_put (a : α) (item : Item) :
    Agrees origin items key (.ok (.ok a), some (item.entry origin)) (.ok a) (items.put key item) :=
  ⟨⟨_, rfl, rfl⟩, cell_put items key item, fun _ hne => if_neg hne⟩

theorem agrees_erase (a : α) : Agrees origin items key (.ok (.ok a), none) (.ok a) (items.erase key) :=
  ⟨⟨_, rfl, rfl⟩, cell_erase items key, fun _ hne => if_neg hne⟩

theorem get_agrees (hnow : nanosPerMilli ∣ now.nanos) :
    Agrees origin items key ((items.cell origin key).get now) (items.get (clockAt origin now) key).1.optionalText
      (items.get (clockAt origin now) key).2 := by
  rw [Cell.get, live_cell hnow, get]
  cases items.live? (clockAt origin now) key with
  | none => exact agrees_kept none
  | some item =>
    simp only [Reply.optionalText_bulk]
    exact agrees_kept (some item.value)

theorem set_agrees (now : Instant) (value : String) :
    Agrees origin items key ((items.cell origin key).set now value none) (items.set key value).1.accept
      (items.set key value).2 :=
  agrees_put () ⟨value, none⟩

theorem del_agrees (hnow : nanosPerMilli ∣ now.nanos) :
    Agrees origin items key ((items.cell origin key).delete now)
      (Client.readCount (items.del (clockAt origin now) key).1) (items.del (clockAt origin now) key).2 := by
  rw [Cell.delete, live_cell hnow, del]
  cases items.live? (clockAt origin now) key with
  | none => exact agrees_erase false
  | some item => exact agrees_erase true

theorem pttl_agrees (hnow : nanosPerMilli ∣ now.nanos) :
    Agrees origin items key ((items.cell origin key).ttlRemaining now)
      (Client.readLifetime (items.pttl (clockAt origin now) key).1) (items.pttl (clockAt origin now) key).2 := by
  rw [Cell.ttlRemaining, live_cell hnow, pttl]
  cases hlive : items.live? (clockAt origin now) key with
  | none => exact agrees_kept none
  | some item =>
    obtain ⟨value, deadline⟩ := item
    cases deadline with
    | none => exact agrees_kept none
    | some d =>
      have hlater : clockAt origin now < d := lt_of_live? hlive
      have hread : Client.readLifetime (.integer (d - clockAt origin now)) =
          .ok (some (.ofMillis (d - clockAt origin now))) := by
        have hpos : 0 < (d : Int) - clockAt origin now := by omega
        simp only [Client.readLifetime, Reply.integerValue, Functor.map, Except.map, hpos, if_true]
        congr
        omega
      have hleft : (Duration.ofMillis (d - clockAt origin now)).isZero = false := by
        simp only [Duration.isZero, Duration.ofMillis, nanosPerMilli, beq_eq_false_iff_ne]
        omega
      simp only [hread, Option.map_some, Option.bind_some, Item.entry, Option.filter, hleft, Bool.not_false, if_true,
        timeLeft_instantOf hnow]
      exact agrees_kept _

/-- An increment fails, or it writes a sum, which keeps its deadline or gets one. -/
theorem increment_cases (hnow : nanosPerMilli ∣ now.nanos) {amount : Int}
    (hamount : Memory.counterBounds.contains amount = true)
    (hvalue : ∀ item, items.live? (clockAt origin now) key = some item → Canonical item.value) (ttl : Option Duration)
    {at? : Option Instant} (hdue : Memory.deadline now ttl = .ok at?) :
    (∃ text cause, items.incrBy (clockAt origin now) key (toString amount) = (.error text, items) ∧
      (Reply.error text).isNoScript = false ∧
      (items.cell origin key).increment now key amount ttl = (.ok (.error (.internal cause)), items.cell origin key)) ∨
    ∃ n deadline, (∀ d, deadline = some d → clockAt origin now < d) ∧
      items.incrBy (clockAt origin now) key (toString amount) = (.integer n, items.put key ⟨toString n, deadline⟩) ∧
      (items.cell origin key).increment now key amount ttl =
        (.ok (.ok n), some ⟨toString n, (deadline.map (instantOf origin)).or at?⟩) := by
  rw [Cell.increment, live_cell hnow, incrBy, readInteger?_toString hamount]
  cases hlive : items.live? (clockAt origin now) key with
  | none =>
    have hzero : readInteger? "0" = some 0 := readInteger?_toString (n := 0) (by decide)
    have hsum : Reply.integerBounds.contains amount = true := hamount
    refine .inr ⟨amount, none, ?_, ?_, ?_⟩
    · intro d hd
      cases hd
    · simp only [Option.getD_none, hzero, Int.zero_add, hsum, if_true]
    · simp only [Option.map_none, hdue, Option.none_or]
  | some item =>
    have hcanonical := hvalue item hlive
    simp only [Option.getD_some, Option.map_some, Cell.raise, Memory.sum, Item.entry,
      readInteger?_of_canonical hcanonical]
    cases hparse : Text.Integer.parse Memory.counterBounds item.value with
    | error fault => exact .inl ⟨_, _, rfl, by decide, rfl⟩
    | ok n =>
      have hbounds : Reply.integerBounds = Memory.counterBounds := rfl
      simp only [Except.toOption, hbounds]
      by_cases hfits : Memory.counterBounds.contains (n + amount) = true
      · simp only [hfits, if_true]
        refine .inr ⟨n + amount, item.deadline, ?_, rfl, ?_⟩
        · intro d hd
          obtain ⟨value, deadline⟩ := item
          cases hd
          exact lt_of_live? hlive
        · cases item.deadline with
          | none => simp [hdue]
          | some d => simp
      · simp only [hfits]
        exact .inl ⟨_, _, rfl, by decide, rfl⟩

section Lifetime
variable {ttl : Duration} (hnow : nanosPerMilli ∣ now.nanos) (hlong : ttl.millis ≠ 0)
  (hwhole : nanosPerMilli ∣ ttl.nanos)
  (hends : (now.add? ttl).isSome ∧ clockAt origin now + ttl.millis ≤ clockEnd)
include hnow hlong hwhole hends

theorem setFor_agrees (value : String) :
    Agrees origin items key ((items.cell origin key).set now value (some ttl))
      (items.setFor (clockAt origin now) key value (ttlText ttl)).1.accept
      (items.setFor (clockAt origin now) key value (ttlText ttl)).2 := by
  rw [Cell.set, Cell.deadline_eq_ok hends.1, setFor, deadlineAfter_ttlText hlong hends.2, ← instantOf_add hnow hwhole]
  exact agrees_put () ⟨value, some _⟩

theorem setAbsentFor_agrees (value : String) :
    Agrees origin items key ((items.cell origin key).setIfAbsent now value ttl)
      (Client.readPresence (items.setAbsentFor (clockAt origin now) key value (ttlText ttl)).1)
      (items.setAbsentFor (clockAt origin now) key value (ttlText ttl)).2 := by
  rw [Cell.setIfAbsent, live_cell hnow, Cell.deadline_eq_ok hends.1, setAbsentFor,
    deadlineAfter_ttlText hlong hends.2, ← instantOf_add hnow hwhole]
  cases items.live? (clockAt origin now) key with
  | none => exact agrees_put true ⟨value, some _⟩
  | some item => exact agrees_kept false

theorem run_increment_agrees {amount : Int} (hamount : Memory.counterBounds.contains amount = true)
    (hvalue : ∀ item, items.live? (clockAt origin now) key = some item → Canonical item.value)
    (hexact : ∀ n, ((items.cell origin key).increment now key amount (some ttl)).1 = .ok (.ok n) →
      n.natAbs ≤ exactBound) :
    ∃ r after,
      Routine.increment.run (clockAt origin now) ⟨[key], [toString amount, ttlText ttl]⟩ items = (r, after) ∧
      r.isNoScript = false ∧ r.isLegible = true ∧
      Agrees origin items key ((items.cell origin key).increment now key amount (some ttl)) r.integerValue after := by
  rcases increment_cases hnow hamount hvalue (some ttl) (Cell.deadline_eq_ok hends.1) with
    ⟨text, cause, hadd, hknown, hcell⟩ | ⟨n, deadline, hlater, hadd, hcell⟩
  · refine ⟨_, _, Routine.run_increment_of_error hadd, hknown, rfl, ?_⟩
    rw [hcell]
    exact agrees_refused rfl
  · rw [hcell] at hexact ⊢
    have hrounded : rounded n = n := rounded_eq (hexact n rfl)
    have hlegible : (Reply.integer (rounded n)).isLegible = true := by
      rw [hrounded, Reply.isLegible_integer]
      exact contains_of_exact (hexact n rfl)
    cases deadline with
    | some d =>
      have hleft := pttl_put_until items key (toString n) (hlater d rfl)
      have hne : rounded (d - clockAt origin now) ≠ -1 := by
        have := hlater d rfl
        have := rounded_nonneg (n := d - clockAt origin now) (by omega)
        omega
      refine ⟨_, _, Routine.run_increment_of_lasting hadd hleft hne, rfl, hlegible, ?_⟩
      rw [hrounded]
      exact agrees_put n ⟨toString n, some d⟩
    | none =>
      have hleft := pttl_put_endless items (clockAt origin now) key (toString n)
      have hdue := pexpire_put_endless hlong hends.2 items key (toString n)
      refine ⟨_, _, Routine.run_increment_of_endless hadd hleft hdue, rfl, hlegible, ?_⟩
      rw [hrounded, ← instantOf_add hnow hwhole]
      exact agrees_put n ⟨toString n, some _⟩

end Lifetime

theorem incrBy_agrees (hnow : nanosPerMilli ∣ now.nanos) {amount : Int}
    (hamount : Memory.counterBounds.contains amount = true)
    (hvalue : ∀ item, items.live? (clockAt origin now) key = some item → Canonical item.value) :
    Agrees origin items key ((items.cell origin key).increment now key amount none)
      (items.incrBy (clockAt origin now) key (toString amount)).1.integerValue
      (items.incrBy (clockAt origin now) key (toString amount)).2 := by
  rcases increment_cases hnow hamount hvalue none rfl with
    ⟨text, cause, hadd, -, hcell⟩ | ⟨n, deadline, -, hadd, hcell⟩
  · rw [hadd, hcell]
    exact agrees_refused rfl
  · rw [hadd, hcell, Option.or_none]
    exact agrees_put n ⟨toString n, deadline⟩

theorem run_compareAndDelete_agrees (hnow : nanosPerMilli ∣ now.nanos) (expected : String) :
    ∃ r after, Routine.compareAndDelete.run (clockAt origin now) ⟨[key], [expected]⟩ items = (r, after) ∧
      r.isNoScript = false ∧ r.isLegible = true ∧
      Agrees origin items key ((items.cell origin key).compareAndDelete now expected) (Client.readCount r) after := by
  have hcell : (items.cell origin key).compareAndDelete now expected = _ :=
    Cell.serve_compareAndDelete_eq _ now key expected
  rw [Routine.run_compareAndDelete, hcell, live_cell hnow, Option.map_map]
  have hvalue : Entry.value ∘ Item.entry origin = Item.value := rfl
  rw [hvalue]
  split
  · exact ⟨_, _, rfl, rfl, Reply.isLegible_integer 1, agrees_erase true⟩
  · exact ⟨_, _, rfl, rfl, Reply.isLegible_integer 0, agrees_kept false⟩

end Commands

end Keyspace

end Remote

end Coordination
