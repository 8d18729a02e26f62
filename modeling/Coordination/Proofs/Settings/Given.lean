import Mathlib.Data.List.Nodup
import Mathlib.Data.List.Pairwise
import Coordination.Proofs.Settings.Accepted

/-! # Settings that are given

A variable is read into its own setting and into no other, and none is read twice. So each setting of an environment that is
accepted is what a variable gives for it, or its default if no variable does.
-/
namespace Coordination.Settings

variable {s s' s'' : Settings} {e e' : Entry} {environment rest : List (String × String)} {name text text' setting : String}

/-- A variable of the environment gives a text for a setting. -/
def Gives (environment : List (String × String)) (setting text : String) : Prop :=
  ∃ name, (name, text) ∈ environment ∧ settingOf? name = some setting

/-- The setting holds what is read from a text. -/
def Content.Holds (c : Content) (s : Settings) (text : String) : Prop :=
  match c with
  | .text get _ => get s = text
  | .list get _ => get s = commaList text
  | .number word get _ => Text.Integer.parse (Bounds.unsigned word.bits) text = .ok (get s)

/-- Two settings hold the same here. -/
def Content.Same (c : Content) (s s' : Settings) : Prop :=
  match c with
  | .text get _ => get s = get s'
  | .list get _ => get s = get s'
  | .number _ get _ => get s = get s'

/-- What is put here is found here. -/
def Content.Keeps : Content → Prop
  | .text get put => ∀ s v, get (put s v) = v
  | .list get put => ∀ s v, get (put s v) = v
  | .number _ get put => ∀ s n, get (put s n) = n

/-- What is put here changes nothing there. -/
def Content.Spares (c c' : Content) : Prop :=
  match c with
  | .text _ put => ∀ s v, c'.Same (put s v) s
  | .list _ put => ∀ s v, c'.Same (put s v) s
  | .number _ _ put => ∀ s n, c'.Same (put s n) s

theorem Content.Same.refl (c : Content) (s : Settings) : c.Same s s := by
  cases c <;> exact rfl

theorem Content.Same.trans {c : Content} (h : c.Same s s') (h' : c.Same s' s'') : c.Same s s'' := by
  cases c <;> exact Eq.trans h h'

theorem Content.Same.holds {c : Content} (h : c.Same s s') (h' : c.Holds s' text) : c.Holds s text := by
  cases c with
  | text | list => exact Eq.trans h h'
  | number => exact Eq.trans h' (congrArg _ (congrArg _ (Eq.symm h)))

theorem table_keeps : ∀ e ∈ table, e.content.Keeps := by
  simp only [table, List.forall_mem_cons, List.not_mem_nil, false_imp_iff, implies_true, and_true, Content.Keeps]

theorem table_spares : table.Pairwise fun e e' => e.content.Spares e'.content ∧ e'.content.Spares e.content := by
  simp only [table, List.pairwise_cons, List.forall_mem_cons, List.not_mem_nil, false_imp_iff, implies_true, and_true,
    Content.Spares, Content.Same, List.Pairwise.nil]

theorem spares_of_ne (he : e ∈ table) (he' : e' ∈ table) (hne : e.name ≠ e'.name) : e.content.Spares e'.content := by
  have : Std.Symm fun e e' : Entry => e.content.Spares e'.content ∧ e'.content.Spares e.content := ⟨fun _ _ => And.symm⟩
  exact (table_spares.forall he he' fun heq => hne (congrArg _ heq)).1

theorem eq_of_name_eq (he : e ∈ table) (he' : e' ∈ table) (h : e.name = e'.name) : e = e' := by
  have hnodup : (table.map Entry.name).Nodup := by decide
  exact List.inj_on_of_nodup_map hnodup he he' h

theorem holds_parse {c : Content} (hkeeps : c.Keeps) (h : c.parse name text s = .ok s') : c.Holds s' text := by
  cases puts_of_parse h with
  | text get put => exact hkeeps s text
  | list get put => exact hkeeps s (commaList text)
  | number get put hread _ => exact hread.trans (congrArg _ (congrArg _ (hkeeps s _).symm))

theorem same_parse {c c' : Content} (hspares : c.Spares c') (h : c.parse name text s = .ok s') : c'.Same s' s := by
  cases puts_of_parse h with
  | text get put => exact hspares s text
  | list get put => exact hspares s (commaList text)
  | number get put _ _ => exact hspares s _

theorem gives_cons_iff : Gives ((name, text) :: rest) setting text' ↔
    settingOf? name = some setting ∧ text' = text ∨ Gives rest setting text' := by
  unfold Gives
  simp only [List.mem_cons, Prod.mk.injEq]
  constructor
  · rintro ⟨name', ⟨rfl, rfl⟩ | hmem, hname⟩
    · exact .inl ⟨hname, rfl⟩
    · exact .inr ⟨name', hmem, hname⟩
  · rintro (⟨hname, rfl⟩ | ⟨name', hmem, hname⟩)
    · exact ⟨name, .inl ⟨rfl, rfl⟩, hname⟩
    · exact ⟨name', .inr hmem, hname⟩

theorem gives_cons_of_ne (h : settingOf? name ≠ some setting) :
    Gives ((name, text) :: rest) setting = Gives rest setting := by
  funext text'
  rw [gives_cons_iff, eq_iff_iff]
  exact or_iff_right fun hgiven => h hgiven.1

/-- What the environment makes of a setting: it is read from a text that is given, or nothing is given and it stays. -/
def Entry.Settled (e : Entry) (environment : List (String × String)) (s s' : Settings) : Prop :=
  (∃ text, Gives environment e.name text ∧ e.content.Holds s' text) ∨
    (∀ text, ¬ Gives environment e.name text) ∧ e.content.Same s' s

/-- What is read first stays, and the rest is settled by the variables that are left. -/
theorem settled_readVariables {given given' : List String} (hread : readVariables given s environment = .ok (given', s'))
    (he : e ∈ table) : (e.name ∈ given → e.content.Same s' s) ∧ (e.name ∉ given → e.Settled environment s s') := by
  -- On the variables that are left: `given` tells the settings that none of them can change any more.
  induction environment generalizing given s with
  | nil =>
    cases hread
    exact ⟨fun _ => .refl _ _, fun _ => .inr ⟨fun text ⟨_, hmem, _⟩ => List.not_mem_nil hmem, .refl _ _⟩⟩
  | cons first rest ih =>
    obtain ⟨name, text⟩ := first
    obtain ⟨hpassed, hrest⟩ | ⟨e₁, he₁, hname, hnew, bare, s₁, hparse, hrest⟩ := readVariables_cons hread
    · unfold Entry.Settled
      rw [gives_cons_of_ne (hpassed e he)]
      exact ih hrest
    · obtain ⟨hkept, hsettled⟩ := ih hrest
      by_cases hsame : e.name = e₁.name
      · obtain rfl := eq_of_name_eq he he₁ hsame
        refine ⟨fun hgiven => absurd hgiven hnew, fun _ => .inl ⟨text, gives_cons_iff.2 (.inl ⟨hname, rfl⟩), ?_⟩⟩
        exact (hkept List.mem_cons_self).holds (holds_parse (table_keeps e he) hparse)
      · have hspared : e.content.Same s₁ s := same_parse (spares_of_ne he₁ he (Ne.symm hsame)) hparse
        refine ⟨fun hgiven => (hkept (List.mem_cons_of_mem _ hgiven)).trans hspared, fun hgiven => ?_⟩
        have hother : settingOf? name ≠ some e.name := fun h => hsame (Option.some.inj (h.symm.trans hname))
        unfold Entry.Settled
        rw [gives_cons_of_ne hother]
        rcases hsettled (List.not_mem_cons_of_ne_of_not_mem hsame hgiven) with hgives | ⟨hnone, hstays⟩
        · exact .inl hgives
        · exact .inr ⟨hnone, hstays.trans hspared⟩

/-- Each setting is what the environment gives, or its default. -/
theorem settled_of_ofVariables (h : ofVariables environment = .ok s) (he : e ∈ table) :
    e.Settled environment (standard "") s := by
  obtain ⟨_, hread, _⟩ := ofVariables_ok h
  exact (settled_readVariables hread he).2 List.not_mem_nil

/-- The environment gives a number for a setting, or gives nothing and it is the default. -/
def GivesNumber (environment : List (String × String)) (setting : String) (word : Word) (default n : Nat) : Prop :=
  (∃ text, Gives environment setting text ∧ Text.Integer.parse (Bounds.unsigned word.bits) text = .ok n) ∨
    (∀ text, ¬ Gives environment setting text) ∧ n = default

theorem givesNumber_of_ofVariables (h : ofVariables environment = .ok s) (name : String) {word : Word}
    {get : Settings → Nat} {put : Settings → Nat → Settings} (hentry : entry? name = some e)
    (hcontent : e.content = .number word get put) :
    GivesNumber environment name word (get (standard "")) (get s) := by
  have hname : e.name = name := beq_iff_eq.1 (List.find?_some hentry :)
  have hsettled := settled_of_ofVariables h (List.mem_of_find?_eq_some hentry)
  unfold Entry.Settled at hsettled
  rw [hname, hcontent] at hsettled
  exact hsettled

end Coordination.Settings
