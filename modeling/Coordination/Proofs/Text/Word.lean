import Mathlib.Data.Nat.Digits.Defs
import Coordination.Text.Integer

/-! # Integers of 64 bits in texts

The integer that a text stands for, without a reader: decimal digits with at most one sign in front, whose value is of 64 bits.
It is what is read from the text digit by digit, where the first digit that goes too far ends the reading.
-/
namespace Coordination.Text.Integer

/-- What decimal digits come to, the last of which counts ones. -/
def decimal (ds : List Char) : Nat := Nat.ofDigits 10 (ds.reverse.map fun c => c.toNat - 48)

def IsWord (n : Int) : Prop := -9223372036854775808 ≤ n ∧ n ≤ 9223372036854775807

instance (n : Int) : Decidable (IsWord n) := inferInstanceAs (Decidable (_ ∧ _))

/-- One or minus one, and the text without the sign that says so. -/
def signed : List Char → Int × List Char
  | '-' :: ds => (-1, ds)
  | '+' :: ds => (1, ds)
  | ds => (1, ds)

/-- The integer of 64 bits that a text stands for. -/
def word? (text : String) : Option Int :=
  let (sign, ds) := signed text.toList
  if ds ≠ [] ∧ ds.all Char.isDigit ∧ IsWord (sign * decimal ds) then some (sign * decimal ds) else none

theorem contains_iff_isWord {n : Int} : (Bounds.signed 64).contains n = true ↔ IsWord n := by
  have hlow : (Bounds.signed 64).low = -9223372036854775808 := by decide
  have hhigh : (Bounds.signed 64).high = 9223372036854775807 := by decide
  rw [Bounds.contains_iff, hlow, hhigh, IsWord]

theorem decimal_cons (c : Char) (ds : List Char) : decimal (c :: ds) = (c.toNat - 48) * 10 ^ ds.length + decimal ds := by
  simp only [decimal, List.reverse_cons, List.map_append, List.map_singleton, Nat.ofDigits_append, Nat.ofDigits_singleton,
    List.length_map, List.length_reverse]
  rw [Nat.mul_comm, Nat.add_comm]

theorem appended_eq (negative : Bool) (k d : Nat) :
    appended negative (withSign negative k) d = withSign negative (k * 10 + d) := by
  cases negative <;> simp only [appended, withSign, Bool.false_eq_true, if_true, if_false] <;> omega

theorem contains_withSign_of_le {b : Bounds} (h0 : b.contains 0 = true) {negative : Bool} {k n : Nat} (hle : k ≤ n)
    (hn : b.contains (withSign negative n) = true) : b.contains (withSign negative k) = true := by
  obtain ⟨nlow, nhigh⟩ := Bounds.contains_iff.1 hn
  obtain ⟨zlow, zhigh⟩ := Bounds.contains_iff.1 h0
  rw [Bounds.contains_iff]
  cases negative <;> simp only [withSign, Bool.false_eq_true, if_true, if_false] at nlow nhigh ⊢ <;> omega

theorem within_toOption (b : Bounds) (n : Int) : (within b n).toOption = if b.contains n then some n else none := by
  cases h : b.contains n with
  | true =>
    rw [within_eq_ok h]
    rfl
  | false =>
    cases hw : within b n with
    | error fault => rfl
    | ok m =>
      have hm : m = n := by
        unfold within at hw
        split at hw
        · cases hw
        · split at hw
          · cases hw
          · exact (Except.ok.inj hw).symm
      rw [← hm, contains_of_within hw] at h
      cases h

theorem digits_toOption {b : Bounds} (h0 : b.contains 0 = true) (negative : Bool) {k : Nat} (ds : List Char)
    (hk : b.contains (withSign negative k) = true) :
    (digits b negative (withSign negative k) ds).toOption =
      if ds.all Char.isDigit ∧ b.contains (withSign negative (k * 10 ^ ds.length + decimal ds)) = true then
        some (withSign negative (k * 10 ^ ds.length + decimal ds))
      else none := by
  induction ds generalizing k with
  | nil =>
    have hvalue : k * 10 ^ ([] : List Char).length + decimal [] = k := by simp [decimal]
    simp only [hvalue, hk, digits, Except.toOption]
    simp
  | cons c ds ih =>
    simp only [digits, digit?]
    by_cases hc : c.isDigit = true
    · have hvalue : k * 10 ^ (c :: ds).length + decimal (c :: ds) =
          (k * 10 + (c.toNat - 48)) * 10 ^ ds.length + decimal ds := by
        rw [decimal_cons, List.length_cons, Nat.pow_succ]
        ring
      have hfirst : c.toNat - '0'.toNat = c.toNat - 48 := rfl
      rw [if_pos hc, hvalue]
      simp only [hfirst, appended_eq, List.all_cons, hc, Bool.true_and]
      by_cases hnext : b.contains (withSign negative (k * 10 + (c.toNat - 48))) = true
      · simp only [within_eq_ok hnext]
        exact ih hnext
      · have hlast : ¬ b.contains (withSign negative ((k * 10 + (c.toNat - 48)) * 10 ^ ds.length + decimal ds)) = true := by
          refine fun h => hnext (contains_withSign_of_le h0 ?_ h)
          exact (Nat.le_mul_of_pos_right _ (Nat.pow_pos (by decide))).trans (Nat.le_add_right _ _)
        have hfails := within_toOption b (withSign negative (k * 10 + (c.toNat - 48)))
        rw [if_neg hnext] at hfails
        rw [if_neg fun h => hlast h.2]
        cases hw : within b (withSign negative (k * 10 + (c.toNat - 48))) with
        | error fault => rfl
        | ok m =>
          rw [hw] at hfails
          cases hfails
    · rw [if_neg hc, if_neg fun h => hc (List.all_eq_true.1 h.1 c List.mem_cons_self)]
      rfl

/-- What is read is the integer that the text stands for, and nothing is read where it stands for none. -/
theorem parse_toOption (text : String) : (parse (Bounds.signed 64) text).toOption = word? text := by
  have hread : ∀ negative ds, ds ≠ [] → (digits (Bounds.signed 64) negative 0 ds).toOption =
      if ds ≠ [] ∧ ds.all Char.isDigit ∧ IsWord (withSign negative (decimal ds)) then some (withSign negative (decimal ds))
      else none := by
    intro negative ds hne
    have hzero : withSign negative 0 = 0 := by cases negative <;> rfl
    have hdigits := digits_toOption (b := Bounds.signed 64) (by decide) negative (k := 0) ds (by rw [hzero]; decide)
    simpa only [hzero, Nat.zero_mul, Nat.zero_add, contains_iff_isWord, ne_eq, hne, not_false_eq_true, true_and] using hdigits
  have hplus : ∀ ds, withSign false (decimal ds) = 1 * (decimal ds : Int) := fun ds => (Int.one_mul _).symm
  have hminus : ∀ ds, withSign true (decimal ds) = -1 * (decimal ds : Int) := fun ds => (Int.neg_one_mul _).symm
  have hlow : (Bounds.signed 64).low < 0 := by decide
  unfold parse word?
  split
  · next heq => rw [heq]; rfl
  · next heq => rw [heq]; rfl
  · next ds hne heq =>
    rw [heq, hread false ds fun h => hne (by rw [h]), hplus]
    rfl
  · next ds heq =>
    rw [heq]
    by_cases hne : ds = []
    · subst hne
      rfl
    · rw [if_pos ⟨hlow, hne⟩, hread true ds hne, hminus]
      rfl
  · next ds hempty _ hpositive hnegative =>
    have hsigned : signed text.toList = (1, text.toList) := by
      unfold signed
      split
      · next heq => exact absurd heq (hnegative _)
      · next heq => exact absurd heq (hpositive _)
      · rfl
    rw [hsigned, hread false _ hempty, hplus]

theorem parse_eq_ok_iff {text : String} {n : Int} : parse (Bounds.signed 64) text = .ok n ↔ word? text = some n := by
  rw [← parse_toOption]
  cases parse (Bounds.signed 64) text with
  | error fault => simp [Except.toOption]
  | ok k => simp [Except.toOption]

end Coordination.Text.Integer
