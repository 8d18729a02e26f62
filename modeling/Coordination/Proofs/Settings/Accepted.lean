import Coordination.Proofs.Outcome
import Coordination.Settings.Environment

/-! # Settings that are accepted

Numbers are read within their words, and settings in which one is zero that must not be are refused. So what the table says
of a setting holds of it in all settings that are accepted.
-/
namespace Coordination.Settings

variable {s s' : Settings} {e : Entry}

def Entry.Fits (e : Entry) (s : Settings) : Prop :=
  match e.content with
  | .number word get _ => get s < Nat.pow 2 word.bits
  | _ => True

/-- All numbers fit their words, and none is zero that must not be. -/
structure Usable (s : Settings) : Prop where
  fits : ∀ e ∈ table, e.Fits s
  filled : ∀ e ∈ table, e.isZeroIn s = false

theorem Usable.bounds (h : s.Usable) (name : String) {word : Word} {get : Settings → Nat} {put : Settings → Nat → Settings}
    (hentry : entry? name = some e) (hpositive : e.isPositive = true) (hcontent : e.content = .number word get put) :
    0 < get s ∧ get s < Nat.pow 2 word.bits := by
  have he : e ∈ table := List.mem_of_find?_eq_some hentry
  have hfits := h.fits e he
  have hfilled := h.filled e he
  simp only [Entry.Fits, Entry.isZeroIn, hcontent, hpositive, Bool.true_and, beq_eq_false_iff_ne] at hfits hfilled
  exact ⟨Nat.pos_of_ne_zero hfilled, hfits⟩

theorem validate_eq_ok_iff : s.validate = .ok () ↔ ∀ e ∈ table, e.isZeroIn s = false := by
  have hfind : (table.find? fun e => e.isZeroIn s) = none ↔ ∀ e ∈ table, e.isZeroIn s = false := by
    simp only [List.find?_eq_none, Bool.not_eq_true]
  rw [← hfind, validate]
  cases table.find? fun e => e.isZeroIn s with
  | none => exact ⟨fun _ => rfl, fun _ => rfl⟩
  | some e => exact ⟨nofun, nofun⟩

/-- What is put into a setting keeps all numbers within their words, if it is a number of the word itself. -/
def Content.KeepsFit : Content → Prop
  | .text _ put => ∀ s v, (∀ e ∈ table, e.Fits s) → ∀ e ∈ table, e.Fits (put s v)
  | .list _ put => ∀ s v, (∀ e ∈ table, e.Fits s) → ∀ e ∈ table, e.Fits (put s v)
  | .number word _ put => ∀ s n, n < Nat.pow 2 word.bits → (∀ e ∈ table, e.Fits s) → ∀ e ∈ table, e.Fits (put s n)

theorem table_keepsFit : ∀ e ∈ table, e.content.KeepsFit := by
  simp only [table, List.forall_mem_cons, List.not_mem_nil, false_imp_iff, implies_true, and_true, true_and,
    Content.KeepsFit, Entry.Fits]
  and_intros <;> intros <;> omega

theorem fits_standard (storeUrl : String) : ∀ e ∈ table, e.Fits (standard storeUrl) := by
  simp only [table, List.forall_mem_cons, List.not_mem_nil, false_imp_iff, implies_true, and_true, true_and, Entry.Fits,
    standard, u32, u64, usize]
  decide

theorem bounds_of_parse {bits : Nat} {text : String} {n : Int}
    (h : Text.Integer.parse (Bounds.unsigned bits) text = .ok n) : 0 ≤ n ∧ n < (Nat.pow 2 bits : Nat) := by
  have hpositive : 0 < Nat.pow 2 bits := Nat.two_pow_pos bits
  have hhigh : (Bounds.unsigned bits).high = (Nat.pow 2 bits : Nat) - 1 := rfl
  have hzero : (Bounds.unsigned bits).contains 0 = true := Bounds.contains_iff.2 ⟨Int.le_refl 0, by omega⟩
  obtain ⟨hle, hlt⟩ := Bounds.contains_iff.1 (Text.Integer.contains_of_parse hzero h)
  exact ⟨hle, by omega⟩

/-- What a text puts into a setting: itself, its parts, or the number that it is. -/
inductive Content.Puts (text : String) (s : Settings) : Content → Settings → Prop
  | text (get : Settings → String) (put : Settings → String → Settings) : Puts text s (.text get put) (put s text)
  | list (get : Settings → List String) (put : Settings → List String → Settings) :
    Puts text s (.list get put) (put s (commaList text))
  | number {word : Word} (get : Settings → Nat) (put : Settings → Nat → Settings) {n : Nat}
    (hread : Text.Integer.parse (Bounds.unsigned word.bits) text = .ok n) (hfits : n < Nat.pow 2 word.bits) :
    Puts text s (.number word get put) (put s n)

theorem puts_of_parse {c : Content} {name text : String} (h : c.parse name text s = .ok s') : c.Puts text s s' := by
  cases c with
  | text get put =>
    cases h
    exact .text get put
  | list get put =>
    cases h
    exact .list get put
  | number word get put =>
    simp only [Content.parse] at h
    cases hread : Text.Integer.parse (Bounds.unsigned word.bits) text with
    | error fault =>
      rw [hread] at h
      cases h
    | ok n =>
      rw [hread] at h
      cases h
      obtain ⟨hnonneg, hlt⟩ := bounds_of_parse hread
      exact .number get put (hread.trans (congrArg _ (Int.toNat_of_nonneg hnonneg).symm)) (by omega)

theorem fits_parse {c : Content} (hkeeps : c.KeepsFit) {name text : String} (h : ∀ e ∈ table, e.Fits s)
    (hparse : c.parse name text s = .ok s') : ∀ e ∈ table, e.Fits s' := by
  cases puts_of_parse hparse with
  | text get put => exact hkeeps s text h
  | list get put => exact hkeeps s (commaList text) h
  | number get put _ hfits => exact hkeeps s _ hfits h

/-- The setting that a variable stands for, if its name begins with the prefix. -/
def settingOf? (name : String) : Option String := (bareName? name).map lowerName

theorem readVariables_cons_eq (given : List String) (s : Settings) (name text : String) (rest : List (String × String)) :
    (∀ e ∈ table, settingOf? name ≠ some e.name) ∧
        readVariables given s ((name, text) :: rest) = readVariables given s rest ∨
      ∃ e ∈ table, settingOf? name = some e.name ∧ ∃ bare, readVariables given s ((name, text) :: rest) =
        if given.contains e.name then .error (.configuration (.duplicate e.name))
        else e.content.parse bare text s >>= fun s' => readVariables (e.name :: given) s' rest := by
  simp only [readVariables]
  unfold settingOf?
  cases hbare : bareName? name with
  | none => exact .inl ⟨fun _ _ => (Option.some_ne_none _).symm, rfl⟩
  | some bare =>
    simp only [Option.map_some, Option.some.injEq, ne_eq]
    cases hentry : entry? (lowerName bare) with
    | none =>
      refine .inl ⟨fun e he heq => ?_, rfl⟩
      exact List.find?_eq_none.1 hentry e he (beq_iff_eq.2 heq.symm)
    | some e =>
      have hname : e.name = lowerName bare := beq_iff_eq.1 (List.find?_some hentry :)
      exact .inr ⟨e, List.mem_of_find?_eq_some hentry, hname.symm, bare, rfl⟩

theorem readVariables_cons {given : List String} {name text : String} {rest : List (String × String)}
    {found : List String × Settings} (h : readVariables given s ((name, text) :: rest) = .ok found) :
    (∀ e ∈ table, settingOf? name ≠ some e.name) ∧ readVariables given s rest = .ok found ∨
      ∃ e ∈ table, settingOf? name = some e.name ∧ e.name ∉ given ∧
        ∃ bare s', e.content.parse bare text s = .ok s' ∧ readVariables (e.name :: given) s' rest = .ok found := by
  obtain ⟨hpassed, heq⟩ | ⟨e, he, hname, bare, heq⟩ := readVariables_cons_eq given s name text rest
  · exact .inl ⟨hpassed, heq ▸ h⟩
  · rw [heq] at h
    split at h
    · cases h
    · next hgiven =>
      obtain ⟨s', hparse, hrest⟩ := ok_of_bind h
      exact .inr ⟨e, he, hname, fun hmem => hgiven (List.contains_iff_mem.2 hmem), bare, s', hparse, hrest⟩

/-- Settings that are accepted were read from all variables, with those among them that have to be given, and checked. -/
theorem ofVariables_ok {environment : List (String × String)} (h : ofVariables environment = .ok s) :
    ∃ given, readVariables [] (standard "") environment = .ok (given, s) ∧
      (∀ e ∈ table, e.isRequired = true → e.name ∈ given) ∧ s.validate = .ok () := by
  obtain ⟨⟨given, read⟩, hread, hchecked⟩ := ok_of_bind h
  dsimp only at hchecked
  split at hchecked
  · cases hchecked
  · next hnone =>
    obtain ⟨_, hvalid, hread'⟩ := ok_of_bind hchecked
    cases hread'
    refine ⟨given, hread, fun e he hrequired => ?_, hvalid⟩
    simpa [hrequired] using List.find?_eq_none.1 hnone e he

theorem fits_readVariables {given given' : List String} {environment : List (String × String)}
    (h : ∀ e ∈ table, e.Fits s) (hread : readVariables given s environment = .ok (given', s')) : ∀ e ∈ table, e.Fits s' := by
  induction environment generalizing given s with
  | nil =>
    cases hread
    exact h
  | cons first rest ih =>
    obtain ⟨_, hrest⟩ | ⟨e, he, _, _, _, next, hparse, hrest⟩ := readVariables_cons hread
    · exact ih h hrest
    · exact ih (fits_parse (table_keepsFit e he) h hparse) hrest

theorem usable_of_ofVariables {environment : List (String × String)} (h : ofVariables environment = .ok s) : s.Usable := by
  obtain ⟨_, hread, _, hvalid⟩ := ofVariables_ok h
  exact ⟨fits_readVariables (fits_standard "") hread, validate_eq_ok_iff.1 hvalid⟩

end Coordination.Settings
