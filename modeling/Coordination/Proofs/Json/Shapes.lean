import Mathlib.Algebra.Group.Int.Defs
import Mathlib.Algebra.Group.Nat.Defs
import Coordination.Json.Shape
import Coordination.Proofs.Outcome

/-! # What is taken into a record

A record that is taken from a value was made field by field from the start of its shape. So what holds of the start and is
kept by every field holds of the record, whether it came as an object or as a list. A number that is taken is in its range.
-/
namespace Coordination.Json

variable {σ α : Type} {P : σ → Prop}

/-- Taking the field keeps a property of the record. -/
def Slot.Keeps (P : σ → Prop) (slot : Slot σ) : Prop := ∀ s v s', P s → slot.take s v = .ok s' → P s'

theorem keeps_ofKind {name : String} {k : Kind α} {put : σ → α → σ} {optional trailing : Bool}
    (h : ∀ s v a, P s → k.take v = .ok a → P (put s a)) : (Slot.ofKind name k put optional trailing).Keeps P := by
  intro s v s' hs htake
  obtain ⟨a, ha, rfl⟩ := ok_of_map htake
  exact h s v a hs ha

namespace Shape
variable {shape : Shape σ} {s s' : σ}

theorem takeElements_keeps {slots : List (Slot σ)} {index : Nat} {vs : List Value} (hslots : ∀ slot ∈ slots, slot.Keeps P)
    (hs : P s) (h : shape.takeElements index slots s vs = .ok s') : P s' := by
  induction slots generalizing index s vs with
  | nil =>
    cases vs with
    | nil =>
      cases h
      exact hs
    | cons v vs => cases h
  | cons slot slots ih =>
    obtain ⟨hslot, hrest⟩ := List.forall_mem_cons.1 hslots
    cases vs with
    | nil =>
      simp only [takeElements] at h
      split at h
      · exact ih hrest hs h
      · cases h
    | cons v vs =>
      obtain ⟨next, hnext, hlater⟩ := ok_of_bind h
      exact ih hrest (hslot s v next hs hnext) hlater

theorem takeMembers_keeps {names : List String} {ms : List (String × Value)} (hslots : ∀ slot ∈ shape.slots, slot.Keeps P)
    (hs : P s) (h : shape.takeMembers names s ms = .ok s') : P s' := by
  induction ms generalizing names s with
  | nil =>
    simp only [takeMembers] at h
    split at h
    · cases h
    · cases h
      exact hs
  | cons m ms ih =>
    obtain ⟨name, v⟩ := m
    simp only [takeMembers] at h
    split at h
    · exact ih hs h
    · next slot hfind =>
      split at h
      · cases h
      · obtain ⟨next, hnext, hlater⟩ := ok_of_bind h
        exact ih (hslots slot (List.mem_of_find?_eq_some hfind) s v next hs hnext) hlater

theorem take_keeps (hstart : P shape.start) (hslots : ∀ slot ∈ shape.slots, slot.Keeps P) {v : Value}
    (h : shape.take v = .ok s) : P s := by
  cases v with
  | list vs => exact takeElements_keeps hslots hstart h
  | object ms => exact takeMembers_keeps hslots hstart h
  | null | flag | integer | decimal | text => cases h

end Shape

theorem contains_of_take {b : Bounds} {name : String} {v : Value} {n : Int} (h : (Kind.integer b name).take v = .ok n) :
    b.contains n = true := by
  simp only [Kind.integer, Kind.ofHead] at h
  split at h
  · split at h
    · next hcontains =>
      cases h
      exact hcontains
    · cases h
  · cases h

theorem lt_of_take {bits : Nat} {name : String} {v : Value} {n : Nat} (h : (Kind.natural bits name).take v = .ok n) :
    n < 2 ^ bits := by
  obtain ⟨k, hk, rfl⟩ := ok_of_map (f := Int.toNat) h
  have hbounds := Bounds.contains_iff.1 (contains_of_take hk)
  have hpow : Nat.pow 2 bits = 2 ^ bits := rfl
  simp only [Bounds.unsigned, hpow] at hbounds
  omega

end Coordination.Json
