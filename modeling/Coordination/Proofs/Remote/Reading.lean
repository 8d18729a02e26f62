import Coordination.Proofs.Text.Word
import Coordination.Remote.Client
import Coordination.Text.Utf8

/-! # What replies are taken for

Each request takes its answer from replies of one shape. A reply of that shape is read as the answer that it gives, and every
other is a failure of the store's own, so that no reply is taken for an answer that it does not give.
-/
namespace Coordination.Remote
open Store (Request)

/-- A reply, or an item of it at any depth, has a property. -/
inductive Reply.Holds (P : Reply → Prop) : Reply → Prop
  | here {reply : Reply} (h : P reply) : Holds P reply
  | inside {items : List Reply} {reply : Reply} (hmem : reply ∈ items) (h : Holds P reply) : Holds P (.array items)

def Reply.IsError (reply : Reply) : Prop := ∃ text, reply = .error text

/-- An integer of more than 64 bits, which cannot be read. -/
def Reply.IsWide (reply : Reply) : Prop := ∃ n, reply = .integer n ∧ ¬ Text.Integer.IsWord n

/-- The reply is a text: bytes that encode one, a status, or an integer as it is written. -/
inductive Reply.IsText : Reply → String → Prop
  | bulk (text : String) : IsText (.bulk text.toUTF8) text
  | status (text : String) : IsText (.status text) text
  | integer (n : Int) : IsText (.integer n) (toString n)

/-- The reply is an integer, or a text other than that which stands for one of 64 bits. -/
inductive Reply.IsInteger : Reply → Int → Prop
  | integer (n : Int) : IsInteger (.integer n) n
  | bulk {text : String} {n : Int} (h : Text.Integer.word? text = some n) : IsInteger (.bulk text.toUTF8) n
  | status {text : String} {n : Int} (h : Text.Integer.word? text = some n) : IsInteger (.status text) n

/-- The reply is an integer, and it is told whether that is above zero. -/
def Reply.IsCount (reply : Reply) (positive : Bool) : Prop := ∃ n, reply.IsInteger n ∧ positive = decide (0 < n)

/-- Whether a request takes an answer from a reply. From a reply that is an error or of a foreign shape it takes none. -/
def Takes : (r : Request) → Reply → r.Reply → Prop
  | .ping, reply, _ => reply.IsText "PONG"
  | .setIfAbsent .., reply, true => ∃ text, reply.IsText text
  | .setIfAbsent .., reply, false => reply = .nil
  | .get _, reply, some text => reply.IsText text
  | .get _, reply, none => reply = .nil
  | .set .., reply, _ => ¬ reply.Holds Reply.IsError
  | .delete _, reply, existed => reply.IsCount existed
  | .increment .., reply, n => reply.IsInteger n
  | .ttlRemaining _, reply, some left => ∃ n : Nat, reply.IsInteger n ∧ 0 < n ∧ left = .ofMillis n
  | .ttlRemaining _, reply, none => ∃ n, reply.IsInteger n ∧ n ≤ 0
  | .compareAndDelete .., reply, deleted => reply.IsCount deleted

namespace Reply
variable {α : Type} {f : Reply → Option α}

theorem holds_array_iff {P : Reply → Prop} {items : List Reply} :
    (array items).Holds P ↔ P (.array items) ∨ ∃ reply ∈ items, reply.Holds P := by
  constructor
  · rintro (h | ⟨hmem, h⟩)
    · exact .inl h
    · exact .inr ⟨_, hmem, h⟩
  · rintro (h | ⟨_, hmem, h⟩)
    · exact .here h
    · exact .inside hmem h

theorem holds_iff_of_leaf {P : Reply → Prop} {reply : Reply} (hleaf : ∀ items, reply ≠ .array items) :
    reply.Holds P ↔ P reply := by
  refine ⟨fun h => ?_, .here⟩
  cases h with
  | here h => exact h
  | inside => exact absurd rfl (hleaf _)

mutual
theorem first?_isSome : (reply : Reply) → ((reply.first? f).isSome ↔ reply.Holds fun r => (f r).isSome)
  | .array items => by rw [first?, Option.isSome_or, Bool.or_eq_true, firstIn?_isSome items, holds_array_iff]
  | .integer _ | .bulk _ | .status _ | .error _ | .nil => by
    rw [first?, holds_iff_of_leaf] <;> exact nofun

theorem firstIn?_isSome : (items : List Reply) →
    ((firstIn? f items).isSome ↔ ∃ reply ∈ items, reply.Holds fun r => (f r).isSome)
  | [] => by simp [firstIn?]
  | reply :: rest => by
    rw [firstIn?, Option.isSome_or, Bool.or_eq_true, first?_isSome reply, firstIn?_isSome rest]
    simp only [List.mem_cons, exists_eq_or_imp]
end

theorem Holds.mono {P Q : Reply → Prop} (hPQ : ∀ reply, P reply → Q reply) {reply : Reply} (h : reply.Holds P) :
    reply.Holds Q := by
  induction h with
  | here h => exact .here (hPQ _ h)
  | inside hmem _ ih => exact .inside hmem ih

theorem first?_eq_none_iff {P : Reply → Prop} (hP : ∀ reply, (f reply).isSome ↔ P reply) (reply : Reply) :
    reply.first? f = none ↔ ¬ reply.Holds P := by
  rw [← Option.not_isSome_iff_eq_none, first?_isSome]
  exact not_congr ⟨.mono fun r => (hP r).1, .mono fun r => (hP r).2⟩

theorem error?_eq_none_iff (reply : Reply) : reply.error? = none ↔ ¬ reply.Holds IsError := by
  refine first?_eq_none_iff (fun r => ?_) reply
  cases r <;> simp [IsError]

theorem isLegible_iff (reply : Reply) : reply.isLegible = true ↔ ¬ reply.Holds IsWide := by
  rw [isLegible, Option.isNone_iff_eq_none]
  refine first?_eq_none_iff (fun r => ?_) reply
  cases r with
  | integer n =>
    have hword : integerBounds.contains n = true ↔ Text.Integer.IsWord n := Text.Integer.contains_iff_isWord
    simp [IsWide, ← hword]
  | _ => simp [IsWide]

end Reply

/-- A reading gives the answers that are said to be taken, and fails only over the answer of the store. -/
structure Reads {α : Type} (read : Reply → Except Failure α) (taken : Reply → α → Prop) : Prop where
  ok_iff : ∀ reply a, read reply = .ok a ↔ taken reply a
  internal : ∀ reply failure, read reply = .error failure → ∃ cause, failure = .internal cause

section Reading
variable {α β : Type} {read : Reply → Except Failure α} {taken : Reply → α → Prop} {taken' : Reply → β → Prop}

theorem Reads.bind (h : Reads read taken) {f : α → Except Failure β}
    (hf : ∀ a failure, f a = .error failure → ∃ cause, failure = .internal cause)
    (hiff : ∀ reply b, taken' reply b ↔ ∃ a, taken reply a ∧ f a = .ok b) : Reads (fun reply => read reply >>= f) taken' where
  ok_iff reply b := by
    simp only [hiff, ← h.ok_iff]
    cases read reply with
    | error failure => exact ⟨nofun, nofun⟩
    | ok a => exact ⟨fun hb => ⟨a, rfl, hb⟩, fun ⟨_, ha, hb⟩ => Except.ok.inj ha ▸ hb⟩
  internal reply failure hfailure := by
    cases hread : read reply with
    | ok a =>
      rw [hread] at hfailure
      exact hf a failure hfailure
    | error cause =>
      rw [hread] at hfailure
      cases hfailure
      exact h.internal reply _ hread

theorem Reads.map (h : Reads read taken) {f : α → β} (hiff : ∀ reply b, taken' reply b ↔ ∃ a, taken reply a ∧ f a = b) :
    Reads (fun reply => f <$> read reply) taken' := by
  simp only [map_eq_pure_bind]
  refine h.bind (fun _ _ => nofun) fun reply b => ?_
  simp only [hiff, pure, Except.pure, Except.ok.injEq]

end Reading

theorem reads_text : Reads Reply.text Reply.IsText where
  ok_iff reply text := by
    cases reply with
    | integer n => exact ⟨fun h => by cases h; exact .integer n, fun h => by cases h; rfl⟩
    | status s => exact ⟨fun h => by cases h; exact .status _, fun h => by cases h; rfl⟩
    | bulk bytes =>
      simp only [Reply.text]
      constructor
      · intro h
        split at h
        · next s hs =>
          cases h
          exact Text.Utf8.toUTF8_of_fromUTF8? hs ▸ .bulk _
        · cases h
      · rintro ⟨⟩
        rw [Text.Utf8.fromUTF8?_toUTF8]
    | error | nil | array => exact ⟨nofun, nofun⟩
  internal reply failure h := by
    cases reply with
    | integer | status => cases h
    | bulk bytes =>
      simp only [Reply.text] at h
      split at h
      · cases h
      · cases h
        exact ⟨_, rfl⟩
    | error | nil | array =>
      cases h
      exact ⟨_, rfl⟩

theorem integerOfText_eq_ok_iff {text : String} {n : Int} :
    Reply.integerOfText text = .ok n ↔ Text.Integer.word? text = some n := by
  rw [← Text.Integer.parse_eq_ok_iff]
  unfold Reply.integerOfText Reply.integerBounds
  cases Text.Integer.parse (Bounds.signed 64) text with
  | ok k => exact ⟨fun h => congrArg _ (Except.ok.inj h), fun h => congrArg _ (Except.ok.inj h)⟩
  | error fault => exact ⟨nofun, nofun⟩

theorem integerOfText_internal {text : String} {failure : Failure} (h : Reply.integerOfText text = .error failure) :
    ∃ cause, failure = .internal cause := by
  unfold Reply.integerOfText at h
  split at h
  · cases h
  · cases h
    exact ⟨_, rfl⟩

theorem reads_integerValue : Reads Reply.integerValue Reply.IsInteger where
  ok_iff reply n := by
    cases reply with
    | integer k => exact ⟨fun h => by cases h; exact .integer _, fun h => by cases h; rfl⟩
    | status s => exact ⟨fun h => .status (integerOfText_eq_ok_iff.1 h), fun h => by cases h with
        | status hparse => exact integerOfText_eq_ok_iff.2 hparse⟩
    | bulk bytes =>
      simp only [Reply.integerValue]
      constructor
      · intro h
        split at h
        · next s hs => exact Text.Utf8.toUTF8_of_fromUTF8? hs ▸ .bulk (integerOfText_eq_ok_iff.1 h)
        · cases h
      · intro h
        cases h with
        | bulk hparse =>
          rw [Text.Utf8.fromUTF8?_toUTF8]
          exact integerOfText_eq_ok_iff.2 hparse
    | error | nil | array => exact ⟨nofun, nofun⟩
  internal reply failure h := by
    cases reply with
    | integer => cases h
    | status s => exact integerOfText_internal h
    | bulk bytes =>
      simp only [Reply.integerValue] at h
      split at h
      · exact integerOfText_internal h
      · cases h
        exact ⟨_, rfl⟩
    | error | nil | array =>
      cases h
      exact ⟨_, rfl⟩

theorem reads_accept (key value : String) (ttl : Option Duration) : Reads Reply.accept (Takes (.set key value ttl)) where
  ok_iff reply _ := by
    rw [Takes, ← Reply.error?_eq_none_iff, Reply.accept]
    cases reply.error? with
    | none => exact ⟨fun _ => rfl, fun _ => rfl⟩
    | some text => exact ⟨nofun, nofun⟩
  internal reply failure h := by
    unfold Reply.accept at h
    split at h
    · cases h
      exact ⟨_, rfl⟩
    · cases h

theorem reads_pong : Reads Client.readPong (Takes .ping) := by
  refine reads_text.bind (fun text failure h => ?_) fun reply _ => ?_
  · split at h
    · cases h
    · cases h
      exact ⟨_, rfl⟩
  · constructor
    · exact fun h => ⟨"PONG", h, rfl⟩
    · rintro ⟨text, htext, h⟩
      split at h
      · next hpong =>
        rw [hpong] at htext
        exact htext
      · cases h

theorem optionalText_of_ne_nil {reply : Reply} (h : reply ≠ .nil) : reply.optionalText = some <$> reply.text := by
  cases reply with
  | nil => exact absurd rfl h
  | _ => rfl

theorem reads_optionalText (key : String) : Reads Reply.optionalText (Takes (.get key)) := by
  have hfound : Reads (fun reply => some <$> reply.text) fun reply a => ∃ text, reply.IsText text ∧ some text = a :=
    reads_text.map fun _ _ => Iff.rfl
  constructor
  · intro reply a
    by_cases hnil : reply = .nil
    · subst hnil
      cases a with
      | none => exact ⟨fun _ => rfl, fun _ => rfl⟩
      | some text => exact ⟨nofun, nofun⟩
    · rw [optionalText_of_ne_nil hnil, hfound.ok_iff]
      cases a with
      | none => exact ⟨fun ⟨_, _, heq⟩ => absurd heq (Option.some_ne_none _), fun h => absurd h hnil⟩
      | some text => exact ⟨fun ⟨_, htext, heq⟩ => Option.some.inj heq ▸ htext, fun htext => ⟨text, htext, rfl⟩⟩
  · intro reply failure h
    by_cases hnil : reply = .nil
    · subst hnil
      cases h
    · exact hfound.internal reply failure (optionalText_of_ne_nil hnil ▸ h)

theorem reads_presence (key value : String) (ttl : Duration) :
    Reads Client.readPresence (Takes (.setIfAbsent key value ttl)) := by
  refine (reads_optionalText key).map fun reply written => ?_
  cases written with
  | true =>
    constructor
    · exact fun ⟨text, htext⟩ => ⟨some text, htext, rfl⟩
    · rintro ⟨_ | text, htext, hsome⟩
      · cases hsome
      · exact ⟨text, htext⟩
  | false =>
    constructor
    · exact fun hnil => ⟨none, hnil, rfl⟩
    · rintro ⟨_ | text, hnil, hsome⟩
      · exact hnil
      · cases hsome

theorem reads_count : Reads Client.readCount Reply.IsCount :=
  reads_integerValue.map fun _ _ => exists_congr fun _ => and_congr_right fun _ => eq_comm

theorem reads_lifetime (key : String) : Reads Client.readLifetime (Takes (.ttlRemaining key)) := by
  refine reads_integerValue.map fun reply left => ?_
  cases left with
  | none =>
    constructor
    · rintro ⟨n, hn, hle⟩
      exact ⟨n, hn, if_neg (Int.not_lt.2 hle)⟩
    · rintro ⟨n, hn, hnone⟩
      split at hnone
      · cases hnone
      · next hle => exact ⟨n, hn, Int.not_lt.1 hle⟩
  | some left =>
    constructor
    · rintro ⟨n, hn, hpositive, rfl⟩
      exact ⟨n, hn, if_pos (Int.natCast_pos.2 hpositive)⟩
    · rintro ⟨n, hn, hsome⟩
      split at hsome
      · next hpositive =>
        obtain ⟨k, rfl⟩ := Int.eq_ofNat_of_zero_le (Int.le_of_lt hpositive)
        exact ⟨k, hn, Int.natCast_pos.1 hpositive, (Option.some.inj hsome).symm⟩
      · cases hsome

theorem Reply.IsText.error?_eq_none {reply : Reply} {text : String} (h : reply.IsText text) : reply.error? = none := by
  cases h <;> rfl

theorem Reply.IsInteger.error?_eq_none {reply : Reply} {n : Int} (h : reply.IsInteger n) : reply.error? = none := by
  cases h <;> rfl

theorem Takes.error?_eq_none {r : Request} {reply : Reply} {a : r.Reply} (h : Takes r reply a) : reply.error? = none := by
  cases r with
  | ping => exact Reply.IsText.error?_eq_none h
  | get =>
    cases a with
    | none =>
      obtain rfl : reply = .nil := h
      rfl
    | some text => exact Reply.IsText.error?_eq_none h
  | set => exact (Reply.error?_eq_none_iff reply).2 h
  | setIfAbsent =>
    cases a with
    | true =>
      obtain ⟨_, h⟩ := h
      exact h.error?_eq_none
    | false =>
      obtain rfl : reply = .nil := h
      rfl
  | increment => exact Reply.IsInteger.error?_eq_none h
  | delete | compareAndDelete =>
    obtain ⟨_, h, _⟩ := h
    exact h.error?_eq_none
  | ttlRemaining =>
    cases a <;> obtain ⟨_, h, _⟩ := h <;> exact h.error?_eq_none

end Coordination.Remote
