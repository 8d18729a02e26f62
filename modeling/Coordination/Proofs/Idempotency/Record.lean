import Coordination.Idempotency.Record
import Coordination.Proofs.Json.Records

/-! # Records are read back

Every record whose numbers fit their words is read back from its text, so no two of them have the same text.
-/
namespace Coordination.Idempotency
open Json

theorem take_integer {b : Bounds} {n : Int} (h : b.contains n = true) (name : String) :
    (Kind.integer b name).take (.integer n) = .ok n := if_pos h

theorem take_natural {bits n : Nat} (h : n < 2 ^ bits) (name : String) :
    (Kind.natural bits name).take (.integer n) = .ok n := by
  have hbounds : (Bounds.unsigned bits).contains n = true := by
    rw [Bounds.contains_iff]
    have hpow : Nat.pow 2 bits = 2 ^ bits := rfl
    simp only [Bounds.unsigned, hpow]
    omega
  show Int.toNat <$> (Kind.integer (Bounds.unsigned bits) name).take (.integer n) = _
  rw [take_integer hbounds]
  rfl

theorem Claim.take_members {c : Claim} (h : (Bounds.signed 64).contains c.startedAt = true) :
    Claim.shape.take (.object c.members) = .ok c := by
  simp [Shape.take, Shape.takeMembers, Claim.shape, Claim.members, Slot.required, Slot.ofKind, Shape.missing?,
    take_integer h, Kind.text, Kind.ofHead, Value.head]
  rfl

theorem CachedResponse.take_members {r : CachedResponse} (h : r.statusCode < 2 ^ 16) :
    CachedResponse.shape.take (.object r.members) = .ok r := by
  have hstatus := take_natural h "u16"
  obtain ⟨statusCode, body, contentType⟩ := r
  cases contentType with
  | none =>
    simp [Shape.take, Shape.takeMembers, CachedResponse.shape, CachedResponse.members, Slot.required, Slot.defaulted,
      Slot.ofKind, Shape.missing?, hstatus, Kind.optional, Kind.text, Kind.ofHead, Value.head]
    rfl
  | some t =>
    simp [Shape.take, Shape.takeMembers, CachedResponse.shape, CachedResponse.members, Slot.required, Slot.defaulted,
      Slot.ofKind, Shape.missing?, hstatus, Kind.optional, Kind.text, Kind.ofHead, Value.head]
    rfl

namespace Record

/-- The numbers of the record fit their words. -/
def Fits : Record → Prop
  | .inFlight claim => (Bounds.signed 64).contains claim.startedAt = true
  | .completed response => response.statusCode < 2 ^ 16

def state : Record → State
  | .inFlight _ => .inFlight
  | .completed _ => .completed

def members : Record → List (String × Value)
  | .inFlight claim => claim.members
  | .completed response => response.members

theorem toJson_eq (record : Record) :
    record.toJson = .object ((tagging.tag, .text record.state.name) :: record.members) := by
  cases record <;> rfl

theorem members_plain {record : Record} (h : record.Fits) : ∀ m ∈ record.members, Plain m.2 ∧ m.1 ≠ tagging.tag := by
  cases record with
  | inFlight claim =>
    have hfits : Fits64 claim.startedAt := by
      have hb := Bounds.contains_iff.1 h
      have hpow : Nat.pow 2 (64 - 1) = 2 ^ 63 := rfl
      simp only [Bounds.signed, hpow] at hb
      constructor <;> omega
    simp only [members, Claim.members, List.forall_mem_cons]
    exact ⟨⟨.text _, by decide⟩, ⟨.integer hfits, by decide⟩, by simp⟩
  | completed response =>
    have hfits : Fits64 response.statusCode := by
      simp only [Fits] at h
      constructor <;> omega
    obtain ⟨statusCode, body, contentType⟩ := response
    simp only [members, CachedResponse.members, List.forall_mem_cons]
    cases contentType with
    | none => exact ⟨⟨.integer hfits, by decide⟩, ⟨.text _, by decide⟩, ⟨.null, by decide⟩, by simp⟩
    | some t => exact ⟨⟨.integer hfits, by decide⟩, ⟨.text _, by decide⟩, ⟨.text t, by decide⟩, by simp⟩

theorem ofContents_members {record : Record} (h : record.Fits) :
    ofContents (.object record.members) record.state = .ok record := by
  cases record with
  | inFlight claim =>
    show Record.inFlight <$> Claim.shape.take (.object claim.members) = _
    rw [Claim.take_members h]
    rfl
  | completed response =>
    show Record.completed <$> CachedResponse.shape.take (.object response.members) = _
    rw [CachedResponse.take_members h]
    rfl

theorem decode_encode {record : Record} (h : record.Fits) : decode record.encode = .ok record := by
  have hname : tagging.variants.lookup record.state.name = some record.state := by cases record <;> rfl
  have hread := tagging.read_compact (members_plain h) hname []
  rw [List.append_nil, ← toJson_eq] at hread
  have hwhole : reader record.encode.toList = .ok (record, []) := by
    show (tagging.read _ >>= _) = _
    rw [encode, Value.render, String.toList_ofList, hread]
    simp only [bind, Except.bind, ofContents_members h]
    rfl
  rw [decode, Reader.whole, hwhole]
  rfl

theorem encode_eq_iff {record record' : Record} (h : record.Fits) (h' : record'.Fits) :
    record.encode = record'.encode ↔ record = record' := by
  constructor
  · intro heq
    exact Except.ok.inj ((decode_encode h).symm.trans ((congrArg decode heq).trans (decode_encode h')))
  · exact congrArg encode

end Record

end Coordination.Idempotency
