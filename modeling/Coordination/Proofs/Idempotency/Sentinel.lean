import Coordination.Proofs.Idempotency.Course
import Coordination.Proofs.Json.Shapes
import Coordination.Proofs.Turn.Play

/-! # Texts stand for records

The numbers of a record fit their words whatever text it is read from, and a record whose numbers fit is read back from its
own text. So two records are the same exactly if their texts are, and a claim is given up for its text only where it is the
record under the key.
-/
namespace Coordination.Idempotency
open Json
open Store (Memory)

theorem startedAt_of_take {v : Value} {claim : Claim} (h : Claim.shape.take v = .ok claim) :
    (Bounds.signed 64).contains claim.startedAt = true := by
  refine Shape.take_keeps (P := fun c : Claim => (Bounds.signed 64).contains c.startedAt = true) (by decide) ?_ h
  simp only [Claim.shape, List.forall_mem_cons]
  exact ⟨keeps_ofKind fun _ _ _ hs _ => hs, keeps_ofKind fun _ _ _ _ hn => contains_of_take hn, List.forall_mem_nil _⟩

theorem statusCode_of_take {v : Value} {response : CachedResponse} (h : CachedResponse.shape.take v = .ok response) :
    response.statusCode < 2 ^ 16 := by
  refine Shape.take_keeps (P := fun r : CachedResponse => r.statusCode < 2 ^ 16) (by decide) ?_ h
  simp only [CachedResponse.shape, List.forall_mem_cons]
  exact ⟨keeps_ofKind fun _ _ _ _ hn => lt_of_take hn, keeps_ofKind fun _ _ _ hs _ => hs,
    keeps_ofKind fun _ _ _ hs _ => hs, List.forall_mem_nil _⟩

namespace Record
variable {record : Record} {text : String}

theorem fits_of_ofContents {v : Value} {state : State} (h : ofContents v state = .ok record) : record.Fits := by
  cases state with
  | inFlight =>
    obtain ⟨claim, hclaim, rfl⟩ := ok_of_map h
    exact startedAt_of_take hclaim
  | completed =>
    obtain ⟨response, hresponse, rfl⟩ := ok_of_map h
    exact statusCode_of_take hresponse

theorem fits_of_decode (h : decode text = .ok record) : record.Fits := by
  unfold decode Reader.whole at h
  split at h
  · cases h
  · next read rest hread =>
    split at h
    · cases h
      obtain ⟨⟨⟨state, contents⟩, after⟩, _, hfound⟩ := ok_of_bind hread
      dsimp only at hfound
      cases hcontents : ofContents contents state with
      | error cause =>
        rw [hcontents] at hfound
        cases hfound
      | ok found =>
        rw [hcontents] at hfound
        cases hfound
        exact fits_of_ofContents hcontents
    · cases h

end Record

theorem play_release_of_taken {t : Turn} {m : Memory} (ticket : Ticket) {e : Store.Entry}
    (h : m.visible? t.now (storeKey ticket.key) = some e) :
    ∃ m', t.play (release ticket).run m [] = (.ok (.ok (decide (e.value = ticket.sentinel))), m', []) ∧
      m'.visible? t.now (storeKey ticket.key) = if e.value = ticket.sentinel then none else some e := by
  obtain ⟨m', _, ⟨hm, hseen, hgone⟩ | ⟨hm, hseen, hkept⟩⟩ :=
    m.compareAndDelete_cases t.now (storeKey ticket.key) ticket.sentinel
  · rw [h, Option.map_some, Option.some.injEq] at hseen
    rw [run_release, Turn.play_served hm, decide_eq_true hseen, if_pos hseen]
    exact ⟨m', rfl, hgone t.now (Nat.le_refl _)⟩
  · rw [h, Option.map_some, ne_eq, Option.some.injEq] at hseen
    rw [run_release, Turn.play_served hm, decide_eq_false hseen, if_neg hseen]
    exact ⟨m', rfl, (hkept _ (m.shows_find? t.now _) t.now (Nat.le_refl _)).trans h⟩

/-- A record whose numbers fit is read back from its text, and only such records are ever read. Two of them have the same
text only if they are the same, a claim never has that of a response, and whoever gives up the text of one takes away the
record under a key exactly if it is that one. -/
theorem text_is_record {record record' : Record} (h : record.Fits) (h' : record'.Fits) :
    Record.decode record.encode = .ok record ∧ (record.encode = record'.encode ↔ record = record') ∧
      (∀ claim response, (Record.inFlight claim).encode ≠ (Record.completed response).encode) ∧
      (∀ text read, Record.decode text = .ok read → read.Fits) ∧
      ∀ (t : Turn) (m : Memory) (key : String) (e : Store.Entry), m.visible? t.now (storeKey key) = some e →
        e.value = record'.encode →
        ∃ m', t.play (release ⟨key, record.encode⟩).run m [] = (.ok (.ok (decide (record' = record))), m', []) ∧
          m'.visible? t.now (storeKey key) = if record' = record then none else some e := by
  refine ⟨Record.decode_encode h, Record.encode_eq_iff h h', ?_, fun _ _ => Record.fits_of_decode, ?_⟩
  · intro claim response heq
    exact not_isClaim_responseText response ⟨claim.token, claim.startedAt, heq.symm⟩
  · intro t m key e hseen hvalue
    obtain ⟨m', hplay, hleft⟩ := play_release_of_taken ⟨key, record.encode⟩ hseen
    have hsame : e.value = record.encode ↔ record' = record := by
      rw [hvalue, Record.encode_eq_iff h' h]
    refine ⟨m', ?_, ?_⟩
    · rw [hplay]
      simp only [hsame]
    · rw [hleft]
      simp only [hsame]

def oldestClaim : Claim := ⟨"a \"quoted\" token", -9223372036854775808⟩

/-- A response with the last status and with characters of every kind in its body. -/
def oddResponse : CachedResponse := ⟨65535, "\"\\/\x00\x08\t\n\x0c\r\x1f\x7f\u00e9\u2028😀", none⟩

/-- The response is what the key holds. -/
def responded : Memory := Memory.empty.insert ⟨0⟩ (storeKey "k") ⟨(Record.completed oddResponse).encode, some ⟨9⟩⟩

theorem odd_response_is_not_given_up :
    (Record.inFlight oldestClaim).Fits ∧ (Record.completed oddResponse).Fits ∧
      Record.decode (Record.inFlight oldestClaim).encode = .ok (.inFlight oldestClaim) ∧
      Record.decode (Record.completed oddResponse).encode = .ok (.completed oddResponse) ∧
      (Record.inFlight oldestClaim).encode ≠ (Record.completed oddResponse).encode ∧
      ∃ m', (⟨⟨8⟩, "", 0⟩ : Turn).play (release ⟨"k", (Record.inFlight oldestClaim).encode⟩).run responded [] =
        (.ok (.ok false), m', []) := by
  have hclaim : (Record.inFlight oldestClaim).Fits := by
    show (Bounds.signed 64).contains oldestClaim.startedAt = true
    decide
  have hresponse : (Record.completed oddResponse).Fits := by
    show oddResponse.statusCode < 2 ^ 16
    decide
  obtain ⟨hread, heq, _, _, hrelease⟩ := text_is_record hclaim hresponse
  obtain ⟨hreadResponse, _⟩ := text_is_record hresponse hclaim
  have hseen : responded.visible? ⟨8⟩ (storeKey "k") = some ⟨(Record.completed oddResponse).encode, some ⟨9⟩⟩ := by
    rw [responded, Memory.visible?_insert _ (Nat.zero_le _)]
    rfl
  obtain ⟨m', hplay, _⟩ := hrelease ⟨⟨8⟩, "", 0⟩ responded "k" _ hseen rfl
  exact ⟨hclaim, hresponse, hread, hreadResponse, fun h => Record.noConfusion (heq.1 h), m', hplay⟩

end Coordination.Idempotency
