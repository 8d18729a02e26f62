import Mathlib.Algebra.Group.Int.Defs
import Mathlib.Algebra.Group.Nat.Defs
import Coordination.Json.Tree
import Coordination.Json.Writer

/-! # Scalars are read back

A scalar of 64 bits that was written in front of what cannot belong to a number is read as it was written, and nothing
behind it is taken.
-/
namespace Coordination.Json

theorem hexValue4?_low {n : Nat} (h : n < 0x20) : hexValue4? '0' '0' (hexDigit (n / 16)) (hexDigit (n % 16)) = some n := by
  have all : ∀ n ∈ List.range 0x20, hexValue4? '0' '0' (hexDigit (n / 16)) (hexDigit (n % 16)) = some n := by decide
  exact all n (List.mem_range.2 h)

theorem stringRest_cons {c : Char} (hc : c ≠ '\\') (taken rest : List Char) :
    stringRest taken (c :: rest) =
      if c = '"' then .ok (String.ofList taken.reverse, rest)
      else if c.toNat < 0x20 then .error .malformed
      else stringRest (c :: taken) rest := by
  rw [stringRest]
  all_goals
    intros
    exact absurd ‹c = '\\'› hc

theorem stringRest_low {n : Nat} (h : n < 0x20) (taken rest : List Char) :
    stringRest taken ('\\' :: 'u' :: '0' :: '0' :: hexDigit (n / 16) :: hexDigit (n % 16) :: rest) =
      stringRest (Char.ofNat n :: taken) rest := by
  have hlow : isLowSurrogate n = false := by
    simp only [isLowSurrogate, Bool.and_eq_false_iff, decide_eq_false_iff_not]
    omega
  have hhigh : isHighSurrogate n = false := by
    simp only [isHighSurrogate, Bool.and_eq_false_iff, decide_eq_false_iff_not]
    omega
  rw [stringRest, hexValue4?_low h]
  simp only [hlow, hhigh, Bool.false_eq_true, if_false]

theorem stringRest_escape (c : Char) (taken rest : List Char) :
    stringRest taken (escape c ++ rest) = stringRest (c :: taken) rest := by
  unfold escape
  split
  · next h => subst h; rfl
  split
  · next h => subst h; rfl
  split
  · next h => subst h; rfl
  split
  · next h => subst h; rfl
  split
  · next h => subst h; rfl
  split
  · next h => subst h; rfl
  split
  · next h => subst h; rfl
  split
  · next h =>
    have hread := stringRest_low h taken rest
    rwa [Char.ofNat_toNat] at hread
  · next hquote hslash _ _ _ _ _ hlow =>
    have hread := stringRest_cons hslash taken rest
    rwa [if_neg hquote, if_neg hlow] at hread

theorem stringRest_flatMap (s taken rest : List Char) :
    stringRest taken (s.flatMap escape ++ '"' :: rest) = .ok (String.ofList (taken.reverse ++ s), rest) := by
  induction s generalizing taken with
  | nil =>
    rw [List.flatMap_nil, List.nil_append, List.append_nil, stringRest_cons (by decide), if_pos rfl]
  | cons c s ih =>
    rw [List.flatMap_cons, List.append_assoc, stringRest_escape, ih, List.reverse_cons, List.append_assoc]
    rfl

theorem skipSpaces_cons {c : Char} (h : isSpace c = false) (rest : List Char) : skipSpaces (c :: rest) = c :: rest := by
  rw [skipSpaces, List.dropWhile_cons, h]
  rfl

theorem mark_cons {c : Char} (h : isSpace c = false) (rest : List Char) : mark c (c :: rest) = .ok ((), rest) := by
  rw [mark, skipSpaces_cons h]
  exact if_pos rfl

theorem quoted_append (s : String) (rest : List Char) :
    quoted s ++ rest = '"' :: (s.toList.flatMap escape ++ '"' :: rest) := by
  simp [quoted]

theorem stringRest_quoted (s : String) (rest : List Char) :
    stringRest [] (s.toList.flatMap escape ++ '"' :: rest) = .ok (s, rest) := by
  rw [stringRest_flatMap]
  simp

theorem memberName_quoted (s : String) (rest : List Char) : memberName (quoted s ++ rest) = .ok (s, rest) := by
  rw [quoted_append, memberName, mark_cons (by decide)]
  exact stringRest_quoted s rest

theorem head_quoted (s : String) (rest : List Char) : head (quoted s ++ rest) = .ok (.text s, rest) := by
  rw [quoted_append, head, skipSpaces_cons (by decide)]
  simp only [if_true, stringRest_quoted]
  rfl

theorem quoted_append_inj {s t : String} {rest rest' : List Char} (h : quoted s ++ rest = quoted t ++ rest') :
    s = t ∧ rest = rest' := by
  have hs := memberName_quoted s rest
  rw [h, memberName_quoted] at hs
  cases hs
  exact ⟨rfl, rfl⟩

/-- What cannot be part of a number that stands before it. -/
def EndsNumber (rest : List Char) : Prop :=
  ∀ c ∈ rest.head?, c.isDigit = false ∧ c ≠ '.' ∧ c ≠ 'e' ∧ c ≠ 'E'

theorem absorb_append {n m : Nat} {xs : List Char} (h : absorb n xs = (m, [])) (ys : List Char) :
    absorb n (xs ++ ys) = absorb m ys := by
  induction xs generalizing n with
  | nil =>
    cases h
    rfl
  | cons c xs ih =>
    simp only [absorb] at h
    split at h
    · next hle =>
      rw [List.cons_append, absorb]
      simp only [if_pos hle]
      exact ih h
    · cases h

theorem absorb_toDigits {k : Nat} (h : k ≤ significandLimit) : absorb 0 (Nat.toDigits 10 k) = (k, []) := by
  induction k using Nat.strongRecOn with
  | ind k ih =>
    have last : absorb (k / 10) [Nat.digitChar (k % 10)] = (k, []) := by
      have hdigit : (Nat.digitChar (k % 10)).toNat - '0'.toNat = k % 10 := by
        have all : ∀ d ∈ List.range 10, (Nat.digitChar d).toNat - '0'.toNat = d := by decide
        exact all _ (List.mem_range.2 (Nat.mod_lt k (by decide)))
      have hnext : k / 10 * 10 + k % 10 = k := by omega
      simp only [absorb, hdigit, hnext, if_pos h]
    by_cases hlt : k < 10
    · rw [Nat.div_eq_of_lt hlt, Nat.mod_eq_of_lt hlt] at last
      rw [Nat.toDigits_of_lt_base hlt]
      exact last
    · have hdiv := ih (k / 10) (Nat.div_lt_self (by omega) (by decide)) (by omega)
      rw [Nat.toDigits_of_base_le (by decide) (Nat.not_lt.1 hlt), absorb_append hdiv]
      exact last

theorem toDigits_ne_zero_cons (k : Nat) (c : Char) (rest : List Char) : Nat.toDigits 10 k ≠ '0' :: c :: rest := by
  have head : ∀ k, 0 < k → (Nat.toDigits 10 k).head? ≠ some '0' := by
    intro k
    induction k using Nat.strongRecOn with
    | ind k ih =>
      intro hpos
      by_cases hlt : k < 10
      · have all : ∀ d ∈ List.range 10, 0 < d → Nat.digitChar d ≠ '0' := by decide
        rw [Nat.toDigits_of_lt_base hlt]
        simpa using all k (List.mem_range.2 hlt) hpos
      · have hdiv := ih (k / 10) (Nat.div_lt_self hpos (by decide)) (by omega)
        rw [Nat.toDigits_of_base_le (by decide) (Nat.not_lt.1 hlt), List.head?_append]
        cases hhead : (Nat.toDigits 10 (k / 10)).head? with
        | none => exact absurd (List.head?_eq_none_iff.1 hhead) Nat.toDigits_ne_nil
        | some c => rwa [hhead] at hdiv
  intro heq
  by_cases hpos : 0 < k
  · exact head k hpos (by rw [heq]; rfl)
  · obtain rfl : k = 0 := by omega
    cases heq

theorem digitRun_toDigits (k : Nat) {rest : List Char} (h : EndsNumber rest) :
    digitRun (Nat.toDigits 10 k ++ rest) = (Nat.toDigits 10 k, rest) := by
  have hdigits : ∀ c ∈ Nat.toDigits 10 k, c.isDigit = true :=
    fun c hc => Nat.isDigit_of_mem_toDigits (by decide) (by decide) hc
  have hrest : rest.takeWhile Char.isDigit = [] ∧ rest.dropWhile Char.isDigit = rest := by
    cases rest with
    | nil => exact ⟨rfl, rfl⟩
    | cons c rest =>
      have hc := (h c rfl).1
      simp [hc]
  rw [digitRun, List.takeWhile_append_of_pos hdigits, List.dropWhile_append_of_pos hdigits, hrest.1, hrest.2,
    List.append_nil]

theorem number_toDigits (negative : Bool) {k : Nat} (hk : k ≤ significandLimit) {rest : List Char}
    (h : EndsNumber rest) :
    number negative (Nat.toDigits 10 k ++ rest) = (integerFound negative k).map fun found => (found, rest) := by
  unfold number
  rw [digitRun_toDigits k h]
  dsimp only
  split
  · next hnil => exact absurd hnil Nat.toDigits_ne_nil
  · next hzero => exact absurd hzero (toDigits_ne_zero_cons k _ _)
  · rw [absorb_toDigits hk]
    cases rest with
    | nil => cases integerFound negative k <;> rfl
    | cons c rest =>
      obtain ⟨_, hpoint, he, hE⟩ := h c rfl
      simp only [hpoint, he, hE, or_self, if_false, List.isEmpty_nil, if_true]
      cases integerFound negative k <;> rfl

def Fits64 (n : Int) : Prop := -2 ^ 63 ≤ n ∧ n ≤ 2 ^ 64 - 1

theorem head_minus (rest : List Char) : head ('-' :: rest) = number true rest := rfl

theorem head_digit {c : Char} (hc : c.isDigit = true) (rest : List Char) : head (c :: rest) = number false (c :: rest) := by
  have hne : ∀ d : Char, d.isDigit = false → c ≠ d := by
    rintro d hd rfl
    rw [hc] at hd
    cases hd
  have hspace : isSpace c = false := by
    simp [isSpace, hne ' ' (by decide), hne '\n' (by decide), hne '\t' (by decide), hne '\r' (by decide)]
  rw [head, skipSpaces_cons hspace]
  dsimp only
  rw [if_neg (hne _ (by decide)), if_neg (hne _ (by decide)), if_neg (hne _ (by decide)), if_neg (hne _ (by decide)),
    if_neg (hne _ (by decide)), if_neg (hne _ (by decide)), if_neg (hne _ (by decide)), if_pos hc]

theorem head_integer {n : Int} (hn : Fits64 n) {rest : List Char} (h : EndsNumber rest) :
    head ((toString n).toList ++ rest) = .ok (.integer n, rest) := by
  obtain ⟨hlow, hhigh⟩ := hn
  have hlimit : significandLimit = 2 ^ 64 - 1 := rfl
  cases n with
  | ofNat k =>
    have htext : (toString (Int.ofNat k)).toList = Nat.toDigits 10 k := by
      simp [toString, Int.repr, Nat.repr]
    have hk : k ≤ significandLimit := by
      simp only [Int.ofNat_eq_natCast] at hhigh
      omega
    have hnumber := number_toDigits false hk h
    rw [htext]
    cases hds : Nat.toDigits 10 k with
    | nil => exact absurd hds Nat.toDigits_ne_nil
    | cons c ds =>
      have hc : c.isDigit = true := Nat.isDigit_of_mem_toDigits (by decide) (by decide) (hds ▸ List.mem_cons_self)
      rw [hds, List.cons_append] at hnumber
      rw [List.cons_append, head_digit hc, hnumber]
      rfl
  | negSucc k =>
    have htext : (toString (Int.negSucc k)).toList = '-' :: Nat.toDigits 10 (k + 1) := by
      simp [toString, Int.repr, Nat.repr]
    have hpow : Nat.pow 2 63 = 2 ^ 63 := rfl
    have hfound : integerFound true (k + 1) = .ok (.integer (Int.negSucc k)) := by
      unfold integerFound
      simp only [Bool.not_true, Bool.false_eq_true, if_false]
      rw [if_neg (by omega)]
      rfl
    rw [htext, List.cons_append, head_minus, number_toDigits true (by omega) h, hfound]
    rfl

/-- Values that are no containers, with integers of 64 bits. -/
inductive Plain : Value → Prop
  | null : Plain .null
  | flag (b : Bool) : Plain (.flag b)
  | integer {n : Int} (h : Fits64 n) : Plain (.integer n)
  | text (s : String) : Plain (.text s)

theorem head_plain {v : Value} (hv : Plain v) {rest : List Char} (h : EndsNumber rest) :
    head (compact v ++ rest) = .ok (v.head, rest) := by
  cases hv with
  | null => rfl
  | flag b => cases b <;> rfl
  | integer hn => exact head_integer hn h
  | text s => exact head_quoted s rest

theorem value_plain (depth : Nat) {v : Value} (hv : Plain v) {rest : List Char} (h : EndsNumber rest) :
    value depth (compact v ++ rest) = .ok (v, rest) := by
  have hhead := head_plain hv h
  cases depth with
  | zero =>
    show (head (compact v ++ rest) >>= _) = _
    rw [hhead]
    cases hv <;> rfl
  | succ depth =>
    show (head (compact v ++ rest) >>= _) = _
    rw [hhead]
    cases hv <;> rfl

end Coordination.Json
