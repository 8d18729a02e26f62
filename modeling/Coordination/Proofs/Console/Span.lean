import Coordination.Console.Span
import Coordination.Text.Integer

/-! # Spans are read back

Seconds are written unit by unit, from the longest to the shortest, and units of which there is nothing are left out. Each
number with its unit is read as its seconds again, and their sum is the span that was written.
-/
namespace Coordination.Console.Span

/-- The name is of letters, and of a unit of so many seconds. -/
structure Named (name : String) (size : Nat) : Prop where
  letters : name.toList.all isUnitLetter = true
  unit : ∃ u, TimeUnit.ofName? name = some u ∧ u.scale = ⟨.second, size⟩

/-- A unit that is written: its seconds, and its name by number. -/
structure Measure where
  size : Nat
  name : Nat → String
  positive : 0 < size
  named : ∀ n, Named (name n) size

/-- A number of a unit. -/
structure Term where
  count : Nat
  measure : Measure

def Term.name (t : Term) : String := t.measure.name t.count

def Term.chars (t : Term) : List Char := Nat.toDigits 10 t.count ++ t.name.toList

def Term.text (t : Term) : String := s!"{t.count}{t.name}"

def Term.seconds (t : Term) : Nat := t.count * t.measure.size

theorem Term.named (t : Term) : Named t.name t.measure.size := t.measure.named t.count

theorem Term.count_le (t : Term) : t.count ≤ t.seconds := Nat.le_mul_of_pos_right t.count t.measure.positive

def total : List Term → Nat
  | [] => 0
  | t :: rest => t.seconds + total rest

def spaced (terms : List Term) : List Char := terms.flatMap fun t => ' ' :: t.chars

theorem spaced_cons (t : Term) (rest : List Term) : spaced (t :: rest) = ' ' :: (t.chars ++ spaced rest) := List.flatMap_cons

theorem isBlank_of_isDigit {c : Char} (h : c.isDigit = true) : Text.isBlank c = false := by
  have hbounds : 48 ≤ c.toNat ∧ c.toNat ≤ 57 := by
    simp only [Char.isDigit, Bool.and_eq_true, decide_eq_true_eq, UInt32.le_iff_toNat_le, ge_iff_le] at h
    exact h
  simp only [Text.isBlank, Bool.or_eq_false_iff, Bool.and_eq_false_iff, decide_eq_false_iff_not, beq_eq_false_iff_ne]
  omega

theorem digit?_eq_some {c : Char} {d : Nat} (h : Text.Integer.digit? c = some d) :
    c.isDigit = true ∧ c.toNat - '0'.toNat = d := by
  unfold Text.Integer.digit? at h
  split at h
  · next hdigit => exact ⟨hdigit, Option.some.inj h⟩
  · cases h

theorem eq_of_within {b : Bounds} {n m : Int} (h : Text.Integer.within b n = .ok m) : n = m ∧ n ≤ b.high := by
  unfold Text.Integer.within at h
  split at h
  · cases h
  · next hhigh =>
    split at h
    · cases h
    · exact ⟨Except.ok.inj h, Int.not_lt.1 hhigh⟩

theorem word_high : (Bounds.unsigned 64).high = (numberLimit : Int) := by decide

theorem readNumber_of_digits {n m : Nat} {cs : List Char}
    (h : Text.Integer.digits (Bounds.unsigned 64) false n cs = .ok (m : Int)) (rest : List Char) :
    readNumber n (cs ++ rest) = readNumber m rest := by
  induction cs generalizing n with
  | nil =>
    obtain rfl : n = m := Int.ofNat_inj.1 (Except.ok.inj h)
    rfl
  | cons c cs ih =>
    simp only [Text.Integer.digits] at h
    cases hc : Text.Integer.digit? c with
    | none =>
      rw [hc] at h
      cases h
    | some d =>
      obtain ⟨hdigit, rfl⟩ := digit?_eq_some hc
      simp only [hc] at h
      cases hnext : Text.Integer.within (Bounds.unsigned 64) (Text.Integer.appended false n (c.toNat - '0'.toNat)) with
      | error fault =>
        rw [hnext] at h
        cases h
      | ok next =>
        rw [hnext] at h
        obtain ⟨rfl, hle⟩ := eq_of_within hnext
        have hlimit : n * 10 + (c.toNat - '0'.toNat) ≤ numberLimit := Int.ofNat_le.1 (word_high ▸ hle)
        simp only [List.cons_append, readNumber, hdigit, if_true, shifted?, if_pos hlimit]
        exact ih h

theorem readNumber_toDigits {n : Nat} (h : n ≤ numberLimit) (rest : List Char) :
    readNumber 0 (Nat.toDigits 10 n ++ rest) = readNumber n rest := by
  have hcontains : (Bounds.unsigned 64).contains n = true :=
    Bounds.contains_iff.2 ⟨Int.natCast_nonneg n, word_high ▸ Int.ofNat_le.2 h⟩
  exact readNumber_of_digits (Text.Integer.digits_toDigits (by decide) false n hcontains) rest

theorem isUnitLetter_cases {c : Char} (h : isUnitLetter c = true) : c.isDigit = false ∧ Text.isBlank c = false := by
  have hcode : (65 ≤ c.toNat ∧ c.toNat ≤ 90 ∨ 97 ≤ c.toNat ∧ c.toNat ≤ 122) ∨ c.toNat = 181 := by
    have halpha : c.isAlpha =
        (decide ('A'.val ≤ c.val ∧ c.val ≤ 'Z'.val) || decide ('a'.val ≤ c.val) && decide (c.val ≤ 'z'.val)) := rfl
    simp only [isUnitLetter, halpha, Bool.or_eq_true, Bool.and_eq_true, decide_eq_true_eq, UInt32.le_iff_toNat_le, beq_iff_eq] at h
    rcases h with hletter | rfl
    · exact .inl hletter
    · exact .inr rfl
  constructor
  · have hdigit : ¬ (48 ≤ c.toNat ∧ c.toNat ≤ 57) := by omega
    simp only [Char.isDigit, Bool.and_eq_false_imp, decide_eq_true_eq, decide_eq_false_iff_not, UInt32.le_iff_toNat_le, ge_iff_le]
    exact fun h1 h2 => hdigit ⟨h1, h2⟩
  · simp only [Text.isBlank, Bool.or_eq_false_iff, Bool.and_eq_false_iff, decide_eq_false_iff_not, beq_eq_false_iff_ne]
    omega

theorem readNumber_chars {t : Term} (h : t.count ≤ numberLimit) (rest : List Char) :
    readNumber 0 (t.chars ++ rest) = some (⟨t.count, none⟩, t.name.toList ++ rest) := by
  rw [Term.chars, List.append_assoc, readNumber_toDigits h]
  obtain ⟨hletters, u, hu, _⟩ := t.named
  cases hname : t.name.toList with
  | nil =>
    rw [String.toList_eq_nil_iff.1 hname] at hu
    cases hu
  | cons c cs =>
    have hletter : isUnitLetter c = true := List.all_eq_true.1 hletters c (hname ▸ List.mem_cons_self)
    obtain ⟨hdigit, hblank⟩ := isUnitLetter_cases hletter
    simp [readNumber, hdigit, hblank, hletter]

-- The sums are variables here, since the kernel would count through a product with the nanoseconds of a second.
theorem extended?_eq_some {sum total grains : Nat} (hwhole : sum % Duration.nanosPerSecond = 0)
    (hsum : sum + grains * Duration.nanosPerSecond = total) (hgrains : grains ≤ numberLimit)
    (htotal : total / Duration.nanosPerSecond ≤ numberLimit) : extended? .second sum grains = some total := by
  have hnanos : Grain.second.nanos = Duration.nanosPerSecond := rfl
  simp only [extended?, hnanos, hsum, hwhole, Nat.zero_div, Nat.zero_add, hgrains, htotal, and_self, if_true]

theorem plusShare?_term {t : Term} {k : Nat} (h : k + t.seconds ≤ numberLimit) :
    plusShare? ⟨.second, t.measure.size⟩ (Duration.ofSeconds k).nanos ⟨t.count, 1⟩ =
      some (Duration.ofSeconds (k + t.seconds)).nanos := by
  have hseconds : t.count * t.measure.size ≤ numberLimit := Nat.le_trans (Nat.le_add_left ..) h
  have hwhole : (Duration.ofSeconds k).nanos % Duration.nanosPerSecond = 0 := Nat.mul_mod_left ..
  have hsum : (Duration.ofSeconds k).nanos + t.count * t.measure.size * Duration.nanosPerSecond =
      (Duration.ofSeconds (k + t.seconds)).nanos := (Nat.add_mul ..).symm
  have htotal : (Duration.ofSeconds (k + t.seconds)).nanos / Duration.nanosPerSecond ≤ numberLimit := by
    rw [← Duration.seconds, Duration.seconds_ofSeconds]
    exact h
  rw [plusShare?, Fraction.grains?_one, if_pos hseconds, Option.bind_eq_bind, Option.bind_some,
    extended?_eq_some hwhole hsum hseconds htotal]

theorem plus?_term {t : Term} {u : TimeUnit} (hscale : u.scale = ⟨.second, t.measure.size⟩) {k : Nat}
    (h : k + t.seconds ≤ numberLimit) :
    plus? u (Duration.ofSeconds k).nanos ⟨t.count, none⟩ = some (Duration.ofSeconds (k + t.seconds)).nanos := by
  rw [plus?, hscale, plusShare?_term h]
  rfl

theorem takeWhile_name (t : Term) {rest : List Char} (hrest : ∀ c ∈ rest.head?, c = ' ') :
    (t.name.toList ++ rest).takeWhile isUnitLetter = t.name.toList ∧ (t.name.toList ++ rest).dropWhile isUnitLetter = rest := by
  have hstop : rest.takeWhile isUnitLetter = [] ∧ rest.dropWhile isUnitLetter = rest := by
    cases rest with
    | nil => exact ⟨rfl, rfl⟩
    | cons c cs =>
      obtain rfl : c = ' ' := hrest c rfl
      exact ⟨rfl, rfl⟩
  have hletters := List.all_eq_true.1 t.named.letters
  rw [List.takeWhile_append_of_pos hletters, List.dropWhile_append_of_pos hletters, hstop.1, hstop.2, List.append_nil]
  exact ⟨rfl, rfl⟩

theorem chars_cons (t : Term) : ∃ c cs, t.chars = c :: cs ∧ c.isDigit = true := by
  cases hdigits : Nat.toDigits 10 t.count with
  | nil => exact absurd hdigits Nat.toDigits_ne_nil
  | cons c cs =>
    refine ⟨c, cs ++ t.name.toList, ?_, Nat.isDigit_of_mem_toDigits (by decide) (by decide) (hdigits ▸ List.mem_cons_self)⟩
    rw [Term.chars, hdigits, List.cons_append]

theorem readTerms_term {t : Term} {k : Nat} (h : k + t.seconds ≤ numberLimit) (fuel : Nat) {rest : List Char}
    (hrest : ∀ c ∈ rest.head?, c = ' ') :
    readTerms (fuel + 2) (Duration.ofSeconds k).nanos (' ' :: (t.chars ++ rest)) =
      readTerms (fuel + 1) (Duration.ofSeconds (k + t.seconds)).nanos rest := by
  obtain ⟨c, cs, hchars, hdigit⟩ := chars_cons t
  obtain ⟨u, hu, hscale⟩ := t.named.unit
  obtain ⟨htaken, hdropped⟩ := takeWhile_name t hrest
  have hblanks : (' ' :: (t.chars ++ rest)).dropWhile Text.isBlank = c :: (cs ++ rest) := by
    rw [hchars, List.cons_append, List.dropWhile_cons_of_pos (by decide), List.dropWhile_cons_of_neg]
    rw [isBlank_of_isDigit hdigit]
    decide
  have hcount : t.count ≤ numberLimit := Nat.le_trans t.count_le (Nat.le_trans (Nat.le_add_left ..) h)
  have hnumber := readNumber_chars hcount rest
  rw [hchars, List.cons_append] at hnumber
  rw [readTerms, hblanks]
  simp only [hdigit, Bool.not_true, Bool.false_eq_true, if_false, hnumber, Option.bind_eq_bind, Option.bind_some,
    htaken, hdropped, String.ofList_toList, hu]
  rw [plus?_term hscale h, Option.bind_some]
  cases rest with
  | nil => rfl
  | cons d ds =>
    obtain rfl : d = ' ' := hrest d rfl
    rfl

theorem head_spaced (terms : List Term) : ∀ c ∈ (spaced terms).head?, c = ' ' := by
  cases terms with
  | nil => exact nofun
  | cons t rest =>
    rintro _ ⟨⟩
    rfl

/-- Terms are read as the sum of their seconds. -/
theorem readTerms_spaced {terms : List Term} {k : Nat} (h : k + total terms ≤ numberLimit) {fuel : Nat}
    (hfuel : terms.length ≤ fuel) :
    readTerms (fuel + 1) (Duration.ofSeconds k).nanos (spaced terms) = some (Duration.ofSeconds (k + total terms)).nanos := by
  induction terms generalizing k fuel with
  | nil => rfl
  | cons t rest ih =>
    rw [total, ← Nat.add_assoc] at h ⊢
    rw [spaced_cons]
    cases fuel with
    | zero => cases hfuel
    | succ fuel =>
      rw [readTerms_term (Nat.le_of_add_right_le h) fuel (head_spaced rest)]
      exact ih h (Nat.le_of_succ_le_succ hfuel)

theorem readTerms_blank (fuel sum : Nat) (cs : List Char) : readTerms fuel sum (' ' :: cs) = readTerms fuel sum cs := by
  cases fuel with
  | zero => rfl
  | succ fuel => rw [readTerms, readTerms, List.dropWhile_cons_of_pos (by decide)]

theorem length_le_spaced (terms : List Term) : 2 * terms.length ≤ (spaced terms).length := by
  induction terms with
  | nil => exact Nat.le_refl 0
  | cons t rest ih =>
    obtain ⟨c, cs, hchars, _⟩ := chars_cons t
    rw [spaced_cons, hchars]
    simp only [List.length_cons, List.length_append]
    omega

theorem toList_text (t : Term) : t.text.toList = t.chars := by
  simp [Term.text, Term.chars, toString, Nat.repr]

theorem spaced_eq_cons (t : Term) (rest : List Term) :
    spaced (t :: rest) = ' ' :: (" ".intercalate ((t :: rest).map Term.text)).toList := by
  induction rest generalizing t with
  | nil => simp [spaced, toList_text]
  | cons u rest ih =>
    have hblank : " ".toList = [' '] := rfl
    rw [spaced_cons, ih u]
    simp only [List.map_cons, String.intercalate_cons_cons, String.toList_append, toList_text, hblank, List.append_assoc,
      List.singleton_append]

theorem parse?_terms (t : Term) (rest : List Term) (hlimit : total (t :: rest) ≤ numberLimit) :
    parse? (" ".intercalate ((t :: rest).map Term.text)) = some (.ofSeconds (total (t :: rest))) := by
  have hspaced := spaced_eq_cons t rest
  generalize " ".intercalate ((t :: rest).map Term.text) = text at hspaced ⊢
  have hread : readTerms (text.length + 1) 0 text.toList = some (Duration.ofSeconds (total (t :: rest))).nanos := by
    -- A term has a character at least besides its blank, so that the length of the text is fuel enough.
    have hlength := length_le_spaced (t :: rest)
    rw [hspaced, List.length_cons, List.length_cons, String.length_toList] at hlength
    have hfuel : (t :: rest).length ≤ text.length := by
      rw [List.length_cons]
      omega
    have hsum := readTerms_spaced (Nat.le_trans (Nat.le_of_eq (Nat.zero_add _)) hlimit) hfuel
    rw [hspaced, readTerms_blank, Nat.zero_add] at hsum
    exact (congrArg (readTerms _ · _) (Nat.zero_mul _).symm).trans hsum
  obtain ⟨c, cs, hchars, hdigit⟩ := chars_cons t
  have hhead : text.toList = c :: (cs ++ spaced rest) := by
    rw [spaced_cons, hchars, List.cons_append] at hspaced
    exact (List.cons.inj hspaced).2.symm
  have hzero : text ≠ "0" := by
    rintro rfl
    cases hread
  have hblank : text.toList.all Text.isBlank = false := by
    rw [hhead, List.all_cons, isBlank_of_isDigit hdigit, Bool.false_and]
  rw [parse?, if_neg hzero, hblank, hread]
  rfl

theorem named_counted {name : String} {size : Nat} (h : Named name size) (hs : Named (name ++ "s") size) (n : Nat) :
    Named (counted name n) size := by
  unfold counted
  split
  · exact h
  · exact hs

/-- The units that are written, from the longest on. -/
def measures : List Measure := [
  ⟨31557600, counted "year", by decide, named_counted ⟨rfl, _, rfl, rfl⟩ ⟨rfl, _, rfl, rfl⟩⟩,
  ⟨2630016, counted "month", by decide, named_counted ⟨rfl, _, rfl, rfl⟩ ⟨rfl, _, rfl, rfl⟩⟩,
  ⟨86400, counted "day", by decide, named_counted ⟨rfl, _, rfl, rfl⟩ ⟨rfl, _, rfl, rfl⟩⟩,
  ⟨3600, fun _ => "h", by decide, fun _ => ⟨rfl, _, rfl, rfl⟩⟩,
  ⟨60, fun _ => "m", by decide, fun _ => ⟨rfl, _, rfl, rfl⟩⟩,
  ⟨1, fun _ => "s", by decide, fun _ => ⟨rfl, _, rfl, rfl⟩⟩]

def termsOf : List Measure → Nat → List Term
  | [], _ => []
  | u :: units, seconds =>
    if seconds / u.size = 0 then termsOf units (seconds % u.size)
    else ⟨seconds / u.size, u⟩ :: termsOf units (seconds % u.size)

def parts : List Measure → Nat → List (Option String)
  | [], _ => []
  | u :: units, seconds => (part u.size seconds u.name).1 :: parts units (part u.size seconds u.name).2

theorem parts_eq (units : List Measure) (seconds : Nat) :
    (parts units seconds).filterMap id = (termsOf units seconds).map Term.text := by
  induction units generalizing seconds with
  | nil => rfl
  | cons u units ih =>
    simp only [parts, termsOf, part]
    by_cases hnone : seconds / u.size = 0
    · rw [if_pos hnone, if_pos hnone, List.filterMap_cons_none rfl, ih]
    · rw [if_neg hnone, if_neg hnone]
      exact congrArg (List.cons _) (ih _)

theorem ofSeconds_eq (seconds : Nat) : ofSeconds seconds = " ".intercalate ((termsOf measures seconds).map Term.text) := by
  rw [← parts_eq]
  rfl

theorem total_termsOf (units : List Measure) (seconds : Nat) :
    total (termsOf units seconds) + units.foldl (fun left u => left % u.size) seconds = seconds := by
  induction units generalizing seconds with
  | nil => exact Nat.zero_add seconds
  | cons u units ih =>
    have hleft := ih (seconds % u.size)
    have hsplit := Nat.div_add_mod' seconds u.size
    simp only [termsOf, List.foldl_cons]
    by_cases hnone : seconds / u.size = 0
    · rw [if_pos hnone]
      rw [hnone] at hsplit
      omega
    · simp only [if_neg hnone, total, Term.seconds]
      omega

theorem total_measures (seconds : Nat) : total (termsOf measures seconds) = seconds := by
  have hsum := total_termsOf measures seconds
  simp only [measures, List.foldl_cons, List.foldl_nil, Nat.mod_one, Nat.add_zero] at hsum
  exact hsum

/-- The span that was written is read back. -/
theorem parse?_ofSeconds {seconds : Nat} (hpositive : 0 < seconds) (hlimit : seconds ≤ numberLimit) :
    parse? (ofSeconds seconds) = some (.ofSeconds seconds) := by
  have htotal := total_measures seconds
  rw [ofSeconds_eq]
  cases hterms : termsOf measures seconds with
  | nil =>
    rw [hterms] at htotal
    exact absurd htotal (Nat.ne_of_lt hpositive)
  | cons t rest =>
    rw [hterms] at htotal
    have hread := parse?_terms t rest (htotal ▸ hlimit)
    rwa [htotal] at hread

end Coordination.Console.Span
