import Coordination.Bounds

/-! # Integers in text

Decimal integers with an optional sign, read left to right. The first digit that takes the number out
of its range is reported before anything that stands after it. An integer of the range is read back from
its text.
-/
namespace Coordination.Text.Integer

/-- Why a text is no integer of a range. -/
inductive Fault where
  | empty
  | invalidDigit
  | tooLarge
  | tooSmall
deriving DecidableEq, Repr

def Fault.message : Fault → String
  | .empty => "cannot parse integer from empty string"
  | .invalidDigit => "invalid digit found in string"
  | .tooLarge => "number too large to fit in target type"
  | .tooSmall => "number too small to fit in target type"

def digit? (c : Char) : Option Nat := if c.isDigit then some (c.toNat - '0'.toNat) else none

/-- A number with one more digit, away from zero on the side of its sign. -/
def appended (negative : Bool) (n : Int) (d : Nat) : Int := if negative then n * 10 - d else n * 10 + d

/-- A number of the range, or the side on which it lies outside. -/
def within (b : Bounds) (n : Int) : Except Fault Int :=
  if b.high < n then .error .tooLarge else if n < b.low then .error .tooSmall else .ok n

/-- Reads digits after the number `n`. -/
def digits (b : Bounds) (negative : Bool) : Int → List Char → Except Fault Int
  | n, [] => .ok n
  | n, c :: rest =>
    match digit? c with
    | none => .error .invalidDigit
    | some d =>
      match within b (appended negative n d) with
      | .error fault => .error fault
      | .ok next => digits b negative next rest

/-- Reads a whole text. A minus sign counts as a sign only in ranges with negative members. -/
def parse (b : Bounds) (text : String) : Except Fault Int :=
  match text.toList with
  | [] => .error .empty
  | ['+'] => .error .invalidDigit
  | '+' :: rest => digits b false 0 rest
  | '-' :: rest =>
    if b.low < 0 ∧ rest ≠ [] then digits b true 0 rest else .error .invalidDigit
  | rest => digits b false 0 rest

/-! ## Written integers are read back -/

theorem within_eq_ok {b : Bounds} {n : Int} (h : b.contains n = true) : within b n = .ok n := by
  obtain ⟨hlow, hhigh⟩ := Bounds.contains_iff.1 h
  rw [within, if_neg (Int.not_lt.2 hhigh), if_neg (Int.not_lt.2 hlow)]

theorem digit?_digitChar {d : Nat} (h : d < 10) : digit? (Nat.digitChar d) = some d := by
  have all : ∀ d ∈ List.range 10, digit? (Nat.digitChar d) = some d := by decide
  exact all d (List.mem_range.2 h)

theorem digits_append (b : Bounds) (negative : Bool) (n : Int) (xs ys : List Char) :
    digits b negative n (xs ++ ys) = digits b negative n xs >>= fun m => digits b negative m ys := by
  induction xs generalizing n with
  | nil => rfl
  | cons c xs ih =>
    simp only [List.cons_append, digits]
    cases digit? c with
    | none => rfl
    | some d =>
      cases h : within b (appended negative n d) with
      | error fault => simp only [h]; rfl
      | ok next => simp only [h, ih]

theorem contains_of_within {b : Bounds} {n m : Int} (h : within b n = .ok m) : b.contains m = true := by
  unfold within at h
  split at h
  · cases h
  · split at h
    · cases h
    · cases h
      exact Bounds.contains_iff.2 ⟨by omega, by omega⟩

theorem contains_of_digits {b : Bounds} {negative : Bool} {n m : Int} {cs : List Char} (hn : b.contains n = true)
    (h : digits b negative n cs = .ok m) : b.contains m = true := by
  induction cs generalizing n with
  | nil =>
    cases h
    exact hn
  | cons c rest ih =>
    simp only [digits] at h
    cases hd : digit? c with
    | none => rw [hd] at h; cases h
    | some d =>
      simp only [hd] at h
      cases hw : within b (appended negative n d) with
      | error fault => rw [hw] at h; cases h
      | ok next => exact ih (contains_of_within hw) (by rwa [hw] at h)

/-- What is read is of the range. -/
theorem contains_of_parse {b : Bounds} (h0 : b.contains 0 = true) {text : String} {n : Int} (h : parse b text = .ok n) :
    b.contains n = true := by
  unfold parse at h
  split at h
  · cases h
  · cases h
  · exact contains_of_digits h0 h
  · split at h
    · exact contains_of_digits h0 h
    · cases h
  · exact contains_of_digits h0 h

/-- The number with the given sign. -/
def withSign (negative : Bool) (k : Nat) : Int := if negative then -k else k

theorem appended_withSign (negative : Bool) (k : Nat) :
    appended negative (withSign negative (k / 10)) (k % 10) = withSign negative k := by
  cases negative <;> simp only [appended, withSign, Bool.false_eq_true, if_true, if_false] <;> omega

/-- What stands in front of the last digit of a number of the range is in it too. -/
theorem contains_withSign_div {b : Bounds} (h0 : b.contains 0 = true) {negative : Bool} {k : Nat}
    (hk : b.contains (withSign negative k) = true) : b.contains (withSign negative (k / 10)) = true := by
  obtain ⟨klow, khigh⟩ := Bounds.contains_iff.1 hk
  obtain ⟨zlow, zhigh⟩ := Bounds.contains_iff.1 h0
  rw [Bounds.contains_iff]
  cases negative <;> simp only [withSign, Bool.false_eq_true, if_true, if_false] at klow khigh ⊢ <;> omega

theorem digits_toDigits {b : Bounds} (h0 : b.contains 0 = true) (negative : Bool) (k : Nat)
    (hk : b.contains (withSign negative k) = true) :
    digits b negative 0 (Nat.toDigits 10 k) = .ok (withSign negative k) := by
  induction k using Nat.strongRecOn with
  | ind k ih =>
    have last : digits b negative (withSign negative (k / 10)) [Nat.digitChar (k % 10)]
        = .ok (withSign negative k) := by
      simp only [digits, digit?_digitChar (Nat.mod_lt k (by decide)), appended_withSign, within_eq_ok hk]
    by_cases hlt : k < 10
    · have hzero : withSign negative (k / 10) = 0 := by
        rw [Nat.div_eq_of_lt hlt]
        cases negative <;> rfl
      rw [hzero, Nat.mod_eq_of_lt hlt] at last
      rw [Nat.toDigits_of_lt_base hlt]
      exact last
    · rw [Nat.toDigits_of_base_le (by decide) (Nat.not_lt.1 hlt), digits_append,
        ih (k / 10) (Nat.div_lt_self (by omega) (by decide)) (contains_withSign_div h0 hk)]
      exact last

theorem parse_of_digit {b : Bounds} {text : String} {c : Char} {rest : List Char}
    (h : text.toList = c :: rest) (hc : c.isDigit = true) : parse b text = digits b false 0 (c :: rest) := by
  have hplus : c ≠ '+' := fun e => by subst e; exact absurd hc (by decide)
  have hminus : c ≠ '-' := fun e => by subst e; exact absurd hc (by decide)
  unfold parse
  rw [h]
  split <;> simp_all

/-- An integer of a range is read back from its text. -/
theorem parse_toString {b : Bounds} (h0 : b.contains 0 = true) {n : Int} (h : b.contains n = true) :
    parse b (toString n) = .ok n := by
  cases n with
  | ofNat m =>
    have htext : (toString (Int.ofNat m)).toList = Nat.toDigits 10 m := by
      simp [toString, Int.repr, Nat.repr]
    cases hds : Nat.toDigits 10 m with
    | nil => exact absurd hds Nat.toDigits_ne_nil
    | cons c rest =>
      have hc : c.isDigit = true := Nat.isDigit_of_mem_toDigits (by decide) (by decide) (hds ▸ List.mem_cons_self)
      rw [parse_of_digit (htext.trans hds) hc, ← hds]
      exact digits_toDigits h0 false m h
  | negSucc m =>
    have htext : (toString (Int.negSucc m)).toList = '-' :: Nat.toDigits 10 (m + 1) := by
      simp [toString, Int.repr, Nat.repr]
    have hlow : b.low < 0 := by
      have := (Bounds.contains_iff.1 h).1
      omega
    unfold parse
    rw [htext]
    simp only [hlow, ne_eq, Nat.toDigits_ne_nil, not_false_eq_true, and_self, if_true]
    exact digits_toDigits h0 true (m + 1) h

end Coordination.Text.Integer
