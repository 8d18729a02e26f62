import Coordination.Json.Tagged
import Coordination.Proofs.Json.Scalars

/-! # Tagged records are read back

An object of plain members that was written with its tag in front is read as that variant with the same members.
-/
namespace Coordination.Json

def written (m : String × Value) : List Char := quoted m.1 ++ ':' :: compact m.2

def writtenNext (ms : List (String × Value)) : List Char := ms.flatMap fun m => ',' :: written m

theorem compactMembers_cons (m : String × Value) (ms : List (String × Value)) :
    compactMembers (m :: ms) = written m ++ writtenNext ms := by
  induction ms generalizing m with
  | nil => simp [compactMembers, written, writtenNext]
  | cons m' ms ih =>
    rw [compactMembers, ih m']
    · simp [written, writtenNext]
    · simp

theorem length_le_writtenNext (ms : List (String × Value)) : ms.length ≤ (writtenNext ms).length := by
  induction ms with
  | nil => exact Nat.le_refl 0
  | cons m ms ih =>
    simp only [writtenNext, List.flatMap_cons, List.length_append, List.length_cons] at ih ⊢
    omega

theorem endsNumber_cons {c : Char} (h : c.isDigit = false ∧ c ≠ '.' ∧ c ≠ 'e' ∧ c ≠ 'E') (rest : List Char) :
    EndsNumber (c :: rest) := by
  intro d hd
  cases hd
  exact h

theorem endsNumber_writtenNext (ms : List (String × Value)) (rest : List Char) :
    EndsNumber (writtenNext ms ++ '\x7d' :: rest) := by
  cases ms with
  | nil => exact endsNumber_cons (by decide) rest
  | cons m ms =>
    rw [writtenNext, List.flatMap_cons, List.cons_append, List.cons_append]
    exact endsNumber_cons (by decide) _

theorem nextItem_close (first : Bool) (rest : List Char) : nextItem '\x7d' first ('\x7d' :: rest) = .ok none := rfl

theorem nextItem_written (m : String × Value) (rest : List Char) :
    nextItem '\x7d' true (written m ++ rest) = .ok (some (written m ++ rest)) ∧
      nextItem '\x7d' false (',' :: (written m ++ rest)) = .ok (some (written m ++ rest)) := by
  rw [written, List.append_assoc, quoted_append]
  exact ⟨rfl, rfl⟩

theorem read_written {m : String × Value} (hm : Plain m.2) {rest : List Char} (h : EndsNumber rest) (depth : Nat) :
    memberName (written m ++ rest) = .ok (m.1, ':' :: (compact m.2 ++ rest)) ∧
      mark ':' (':' :: (compact m.2 ++ rest)) = .ok ((), compact m.2 ++ rest) ∧
      value depth (compact m.2 ++ rest) = .ok (m.2, rest) := by
  refine ⟨?_, mark_cons (by decide) _, value_plain depth hm h⟩
  rw [written, List.append_assoc, memberName_quoted]
  rfl

namespace Tagging
variable {α : Type} (t : Tagging α)

theorem readMembers_writtenNext {ms : List (String × Value)} (hms : ∀ m ∈ ms, Plain m.2 ∧ m.1 ≠ t.tag) {fuel : Nat}
    (hfuel : ms.length < fuel) (a : α) (taken : List (String × Value)) (rest : List Char) :
    t.readMembers fuel false (some a) taken (writtenNext ms ++ '\x7d' :: rest) =
      .ok ((a, taken.reverse ++ ms), rest) := by
  induction ms generalizing fuel taken with
  | nil =>
    cases fuel with
    | zero => cases hfuel
    | succ fuel =>
      simp only [readMembers]
      rw [show writtenNext [] = [] from rfl, List.nil_append, nextItem_close, List.append_nil]
      rfl
  | cons m ms ih =>
    cases fuel with
    | zero => cases hfuel
    | succ fuel =>
      obtain ⟨⟨hplain, htag⟩, hrest⟩ := List.forall_mem_cons.1 hms
      have hcons : writtenNext (m :: ms) ++ '\x7d' :: rest = ',' :: (written m ++ (writtenNext ms ++ '\x7d' :: rest)) := by
        simp [writtenNext]
      obtain ⟨hname, hcolon, hvalue⟩ := read_written hplain (endsNumber_writtenNext ms rest) (depthLimit - 1)
      have hnext := ih hrest (Nat.lt_of_succ_lt_succ hfuel) ((m.1, m.2) :: taken)
      simp only [readMembers, hcons, (nextItem_written m _).2, hname, bind, Except.bind, if_neg htag, hcolon, hvalue,
        hnext]
      simp

/-- An object with the tag of a known variant in front and plain members behind is read as that variant. -/
theorem read_compact {ms : List (String × Value)} (hms : ∀ m ∈ ms, Plain m.2 ∧ m.1 ≠ t.tag) {name : String} {a : α}
    (hname : t.variants.lookup name = some a) (rest : List Char) :
    t.read (compact (.object ((t.tag, .text name) :: ms)) ++ rest) = .ok ((a, .object ms), rest) := by
  have hobject : compact (.object ((t.tag, .text name) :: ms)) ++ rest =
      '\x7b' :: (written (t.tag, .text name) ++ (writtenNext ms ++ '\x7d' :: rest)) := by
    rw [compact, compactMembers_cons]
    simp
  have hlength : ms.length < (written (t.tag, .text name) ++ (writtenNext ms ++ '\x7d' :: rest)).length := by
    have hle := length_le_writtenNext ms
    simp only [List.length_append, List.length_cons]
    omega
  obtain ⟨htag, hcolon, _⟩ := read_written (m := (t.tag, .text name)) (.text name) (endsNumber_writtenNext ms rest) 0
  have hvariant : (Kind.variantName t.variants).read (compact (.text name) ++ (writtenNext ms ++ '\x7d' :: rest)) =
      .ok (a, writtenNext ms ++ '\x7d' :: rest) := by
    show (head (quoted name ++ _) >>= _) = _
    rw [head_quoted]
    simp only [bind, Except.bind, Kind.named, hname]
    rfl
  have hnext := t.readMembers_writtenNext hms hlength a [] rest
  rw [hobject, read, skipSpaces_cons (by decide)]
  simp only [readMembers, (nextItem_written _ _).1, htag, bind, Except.bind, if_true, Option.isSome_none,
    Bool.false_eq_true, if_false, hcolon, hvariant, hnext]
  rfl

end Tagging

end Coordination.Json
