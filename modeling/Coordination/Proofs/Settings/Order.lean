import Mathlib.Data.List.Find
import Mathlib.Data.List.Perm.Basic
import Coordination.Proofs.Settings.Given
import Coordination.Services

/-! # The order of variables

Whether an environment can be read does not depend on the order of its variables: no two of them may stand for the same
setting, and each text has to fit its setting. What is read then are the settings that are given, so that the same variables
in another order, and among others that are no settings, come to the same. Order only decides which variable is found wrong
first.
-/
namespace Coordination.Settings

variable {s s' start : Settings} {e : Entry} {given given' : List String} {failure : Failure}
  {environment environment' others rest : List (String × String)} {name text text' setting : String}

/-- Two variables do not stand for the same setting. -/
def Apart (v w : String × String) : Prop := ∀ e ∈ table, settingOf? v.1 = some e.name → settingOf? w.1 ≠ some e.name

/-- A text can be put into a setting. -/
def Content.Reads (c : Content) (text : String) : Prop :=
  match c with
  | .number word _ _ => ∃ n, Text.Integer.parse (Bounds.unsigned word.bits) text = .ok n
  | _ => True

/-- A variable gives no setting that is given already, and its text can be put into the one that it gives. -/
def Legible (given : List String) (v : String × String) : Prop :=
  ∀ e ∈ table, settingOf? v.1 = some e.name → e.name ∉ given ∧ e.content.Reads v.2

/-- What is found wrong with a single variable: another one gave its setting, or its text is no number. -/
inductive Misread : Failure → Prop
  | duplicate (setting : String) : Misread (.configuration (.duplicate setting))
  | number (fault : Text.Integer.Fault) (text name : String) : Misread (.configuration (.number fault text name))

theorem Apart.symm {v w : String × String} (h : Apart v w) : Apart w v := fun e he hw hv => h e he hv hw

theorem apart_of_passed {v w : String × String} (h : ∀ e ∈ table, settingOf? v.1 ≠ some e.name) : Apart v w :=
  fun e he hv => absurd hv (h e he)

theorem legible_of_passed {v : String × String} (h : ∀ e ∈ table, settingOf? v.1 ≠ some e.name) : Legible given v :=
  fun e he hv => absurd hv (h e he)

theorem legible_iff (he : e ∈ table) {v : String × String} (hv : settingOf? v.1 = some e.name) :
    Legible given v ↔ e.name ∉ given ∧ e.content.Reads v.2 := by
  refine ⟨fun h => h e he hv, fun h e' he' hv' => ?_⟩
  obtain rfl := eq_of_name_eq he he' (Option.some.inj (hv.symm.trans hv'))
  exact h

theorem legible_cons_iff (he : e ∈ table) {v w : String × String} (hv : settingOf? v.1 = some e.name) :
    Legible (e.name :: given) w ↔ Apart v w ∧ Legible given w := by
  constructor
  · intro h
    refine ⟨fun e' he' hv' hw => ?_, fun e' he' hw => ?_⟩
    · have hsame : e'.name = e.name := Option.some.inj (hv'.symm.trans hv)
      exact (h e' he' hw).1 (hsame ▸ List.mem_cons_self)
    · obtain ⟨hnew, hreads⟩ := h e' he' hw
      exact ⟨fun hgiven => hnew (List.mem_cons_of_mem _ hgiven), hreads⟩
  · rintro ⟨hapart, h⟩ e' he' hw
    obtain ⟨hnew, hreads⟩ := h e' he' hw
    refine ⟨List.not_mem_cons_of_ne_of_not_mem ?_ hnew, hreads⟩
    intro hsame
    exact hapart e he hv (hsame ▸ hw)

theorem parse_ok_iff {c : Content} : (∃ s', c.parse name text s = .ok s') ↔ c.Reads text := by
  cases c with
  | text | list => exact ⟨fun _ => trivial, fun _ => ⟨_, rfl⟩⟩
  | number word get put =>
    simp only [Content.parse, Content.Reads]
    cases Text.Integer.parse (Bounds.unsigned word.bits) text with
    | ok n => exact ⟨fun _ => ⟨n, rfl⟩, fun _ => ⟨_, rfl⟩⟩
    | error fault =>
      constructor
      · rintro ⟨s', h⟩
        cases h
      · rintro ⟨n, h⟩
        cases h

/-- An environment can be read exactly if its variables stand for different settings and each of them is legible. -/
theorem readVariables_ok_iff : (∃ found, readVariables given s environment = .ok found) ↔
    environment.Pairwise Apart ∧ ∀ v ∈ environment, Legible given v := by
  -- A variable that is read joins `given`, so that the ones behind it are legible only if they stand apart from it.
  induction environment generalizing given s with
  | nil => simp [readVariables]
  | cons v rest ih =>
    obtain ⟨name, text⟩ := v
    rw [List.pairwise_cons, List.forall_mem_cons]
    obtain ⟨hpassed, heq⟩ | ⟨e, he, hname, bare, heq⟩ := readVariables_cons_eq given s name text rest
    · have hapart : ∀ w ∈ rest, Apart (name, text) w := fun _ _ => apart_of_passed (v := (name, text)) hpassed
      have hlegible : Legible given (name, text) := legible_of_passed (v := (name, text)) hpassed
      rw [heq, ih, and_iff_right hapart, and_iff_right hlegible]
    · rw [heq, legible_iff (v := (name, text)) he hname]
      by_cases hgiven : e.name ∈ given
      · rw [if_pos (List.contains_iff_mem.2 hgiven)]
        constructor
        · rintro ⟨found, h⟩
          cases h
        · rintro ⟨_, ⟨hnew, _⟩, _⟩
          exact absurd hgiven hnew
      · have hreads : (∃ s', e.content.parse bare text s = .ok s') ↔ e.content.Reads text := parse_ok_iff
        rw [if_neg fun h => hgiven (List.contains_iff_mem.1 h), ← hreads]
        cases e.content.parse bare text s with
        | error failure =>
          constructor
          · rintro ⟨found, h⟩
            cases h
          · rintro ⟨_, ⟨_, s', h⟩, _⟩
            cases h
        | ok s' =>
          show (∃ found, readVariables (e.name :: given) s' rest = .ok found) ↔ _
          rw [ih]
          simp only [legible_cons_iff (v := (name, text)) he hname]
          constructor
          · rintro ⟨hrest, h⟩
            exact ⟨⟨fun w hw => (h w hw).1, hrest⟩, ⟨hgiven, s', rfl⟩, fun w hw => (h w hw).2⟩
          · rintro ⟨⟨hapart, hrest⟩, _, h⟩
            exact ⟨hrest, fun w hw => ⟨hapart w hw, h w hw⟩⟩

theorem misread_of_parse {c : Content} (h : c.parse name text s = .error failure) : Misread failure := by
  cases c with
  | text | list => cases h
  | number word get put =>
    simp only [Content.parse] at h
    split at h
    · cases h
    · cases h
      exact .number ..

theorem misread_of_readVariables (h : readVariables given s environment = .error failure) : Misread failure := by
  induction environment generalizing given s with
  | nil => cases h
  | cons v rest ih =>
    obtain ⟨name, text⟩ := v
    obtain ⟨_, heq⟩ | ⟨e, _, _, bare, heq⟩ := readVariables_cons_eq given s name text rest
    · exact ih (heq ▸ h)
    · rw [heq] at h
      split at h
      · cases h
        exact .duplicate _
      · cases hparse : e.content.parse bare text s with
        | error cause =>
          rw [hparse] at h
          cases h
          exact misread_of_parse hparse
        | ok s' =>
          rw [hparse] at h
          exact ih h

theorem mem_given_iff (hread : readVariables given s environment = .ok (given', s')) (he : e ∈ table) :
    e.name ∈ given' ↔ e.name ∈ given ∨ ∃ text, Gives environment e.name text := by
  induction environment generalizing given s with
  | nil =>
    cases hread
    simp [Gives]
  | cons v rest ih =>
    obtain ⟨name, text⟩ := v
    obtain ⟨hpassed, hrest⟩ | ⟨e₁, _, hname, _, _, _, _, hrest⟩ := readVariables_cons hread
    · rw [gives_cons_of_ne (hpassed e he)]
      exact ih hrest
    · rw [ih hrest, List.mem_cons, or_comm (a := e.name = e₁.name), or_assoc]
      by_cases hsame : e.name = e₁.name
      · have hgives : ∃ text', Gives ((name, text) :: rest) e.name text' :=
          ⟨text, gives_cons_iff.2 (.inl ⟨hsame ▸ hname, rfl⟩)⟩
        simp only [hsame, true_or, or_true, hsame ▸ hgives]
      · have hother : settingOf? name ≠ some e.name := fun h => hsame (Option.some.inj (h.symm.trans hname))
        simp only [hsame, false_or, gives_cons_of_ne hother]

theorem gives_unique (hapart : environment.Pairwise Apart) (he : e ∈ table) (h : Gives environment e.name text)
    (h' : Gives environment e.name text') : text = text' := by
  obtain ⟨name, hmem, hname⟩ := h
  obtain ⟨name', hmem', hname'⟩ := h'
  have : Std.Symm Apart := ⟨fun _ _ => Apart.symm⟩
  by_contra hne
  exact hapart.forall hmem hmem' (fun heq => hne (congrArg Prod.snd heq)) e he hname hname'

theorem Content.Holds.same {c : Content} (h : c.Holds s text) (h' : c.Holds s' text) : c.Same s s' := by
  cases c with
  | text | list => exact Eq.trans h (Eq.symm h')
  | number => exact Int.ofNat.inj (Except.ok.inj (Eq.trans (Eq.symm h) h'))

theorem Content.Same.symm {c : Content} (h : c.Same s s') : c.Same s' s := by
  cases c <;> exact Eq.symm h

theorem Entry.Settled.same (hapart : environment.Pairwise Apart) (he : e ∈ table) (h : e.Settled environment start s)
    (h' : e.Settled environment start s') : e.content.Same s s' := by
  rcases h with ⟨text, hgives, hholds⟩ | ⟨hnone, hstays⟩
  · rcases h' with ⟨text', hgives', hholds'⟩ | ⟨hnone', _⟩
    · obtain rfl := gives_unique hapart he hgives hgives'
      exact hholds.same hholds'
    · exact absurd hgives (hnone' text)
  · rcases h' with ⟨text', hgives', _⟩ | ⟨_, hstays'⟩
    · exact absurd hgives' (hnone text')
    · exact hstays.trans hstays'.symm

theorem eq_of_same (h : ∀ e ∈ table, e.content.Same s s') : s = s' := by
  obtain ⟨⟩ := s
  obtain ⟨⟩ := s'
  simp only [table, List.forall_mem_cons, Content.Same] at h
  simpa only [Settings.mk.injEq, List.not_mem_nil, false_imp_iff, implies_true, and_true] using h

/-- What an environment is accepted as: no two variables stand for one setting, each setting is what its variable gives or
else its default, none is missing that has to be given, and none is zero that must not be. -/
structure Accepted (environment : List (String × String)) (s : Settings) : Prop where
  apart : environment.Pairwise Apart
  settled : ∀ e ∈ table, e.Settled environment (standard "") s
  complete : ∀ e ∈ table, e.isRequired = true → ∃ text, Gives environment e.name text
  filled : ∀ e ∈ table, e.isZeroIn s = false

theorem Content.Holds.reads {c : Content} (h : c.Holds s text) : c.Reads text := by
  cases c with
  | text | list => trivial
  | number word get put => exact ⟨_, h⟩

theorem Accepted.legible (h : Accepted environment s) : ∀ v ∈ environment, Legible [] v := by
  intro v hv e he hname
  refine ⟨List.not_mem_nil, ?_⟩
  have hgives : Gives environment e.name v.2 := ⟨v.1, hv, hname⟩
  rcases h.settled e he with ⟨text, htext, hholds⟩ | ⟨hnone, _⟩
  · obtain rfl := gives_unique h.apart he hgives htext
    exact hholds.reads
  · exact absurd hgives (hnone v.2)

theorem ofVariables_ok_iff : ofVariables environment = .ok s ↔ Accepted environment s := by
  constructor
  · intro h
    obtain ⟨given, hread, hrequired, hvalid⟩ := ofVariables_ok h
    refine ⟨(readVariables_ok_iff.1 ⟨_, hread⟩).1, fun e he => settled_of_ofVariables h he, ?_, validate_eq_ok_iff.1 hvalid⟩
    intro e he hneeded
    exact ((mem_given_iff hread he).1 (hrequired e he hneeded)).resolve_left List.not_mem_nil
  · intro h
    obtain ⟨⟨given, s'⟩, hread⟩ := readVariables_ok_iff (s := standard "").2 ⟨h.apart, h.legible⟩
    obtain rfl : s' = s := eq_of_same fun e he =>
      Entry.Settled.same h.apart he ((settled_readVariables hread he).2 List.not_mem_nil) (h.settled e he)
    have hnone : (table.find? fun e => e.isRequired && !given.contains e.name) = none := by
      simp only [List.find?_eq_none, Bool.and_eq_true, Bool.not_eq_true', not_and, Bool.not_eq_false, List.contains_iff_mem]
      exact fun e he hneeded => (mem_given_iff hread he).2 (.inr (h.complete e he hneeded))
    simp only [ofVariables, hread, bind, Except.bind, hnone, validate_eq_ok_iff.2 h.filled]
    rfl

/-- After the reading nothing counts but what was read and which settings were given. -/
theorem ofVariables_eq_of_read (hread : readVariables [] (standard "") environment = .ok (given, s))
    (hread' : readVariables [] (standard "") environment' = .ok (given', s))
    (hgiven : ∀ e ∈ table, e.name ∈ given' ↔ e.name ∈ given) : ofVariables environment' = ofVariables environment := by
  have hmissing : (table.find? fun e => e.isRequired && !given'.contains e.name) =
      table.find? fun e => e.isRequired && !given.contains e.name := by
    refine List.find?_congr fun e he => ?_
    have hcontains : given'.contains e.name = given.contains e.name := by
      rw [Bool.eq_iff_iff, List.contains_iff_mem, List.contains_iff_mem, hgiven e he]
    rw [hcontains]
  simp only [ofVariables, hread, hread', bind, Except.bind, hmissing]

theorem settingOf?_eq_none (h : ¬ variablePrefix.toList <+: name.toList) : settingOf? name = none := by
  rw [settingOf?, bareName?, if_neg fun hlead => h (List.isPrefixOf_iff_prefix.1 hlead)]
  rfl

section Reordered
variable (hperm : environment'.Perm (environment ++ others)) (hothers : ∀ v ∈ others, settingOf? v.1 = none)
include hperm hothers

theorem gives_reordered : Gives environment' = Gives environment := by
  funext setting text
  unfold Gives
  refine propext (exists_congr fun name => ?_)
  rw [hperm.mem_iff, List.mem_append]
  constructor
  · rintro ⟨hmem | hmem, hname⟩
    · exact ⟨hmem, hname⟩
    · cases (hothers _ hmem).symm.trans hname
  · rintro ⟨hmem, hname⟩
    exact ⟨.inl hmem, hname⟩

theorem apart_reordered : environment'.Pairwise Apart ↔ environment.Pairwise Apart := by
  have hpassed : ∀ v ∈ others, ∀ w, Apart v w := fun v hv _ =>
    apart_of_passed fun e _ hname => absurd ((hothers v hv).symm.trans hname) (Option.some_ne_none _).symm
  rw [hperm.pairwise_iff Apart.symm, List.pairwise_append]
  exact and_iff_left ⟨List.pairwise_of_forall_mem_list fun v hv w _ => hpassed v hv w, fun v _ w hw => (hpassed w hw v).symm⟩

theorem legible_reordered : (∀ v ∈ environment', Legible [] v) ↔ ∀ v ∈ environment, Legible [] v := by
  have hpassed : ∀ v ∈ others, Legible [] v := fun v hv =>
    legible_of_passed fun e _ hname => absurd ((hothers v hv).symm.trans hname) (Option.some_ne_none _).symm
  simp only [hperm.mem_iff, List.forall_mem_append]
  exact and_iff_left hpassed

theorem readVariables_reordered (hread : readVariables [] (standard "") environment = .ok (given, s)) :
    ∃ given', readVariables [] (standard "") environment' = .ok (given', s) ∧
      ∀ e ∈ table, e.name ∈ given' ↔ e.name ∈ given := by
  obtain ⟨hapart, hlegible⟩ := readVariables_ok_iff.1 ⟨_, hread⟩
  obtain ⟨⟨given', s'⟩, hread'⟩ := readVariables_ok_iff (s := standard "").2
    ⟨(apart_reordered hperm hothers).2 hapart, (legible_reordered hperm hothers).2 hlegible⟩
  have hgives := gives_reordered hperm hothers
  obtain rfl : s = s' := by
    refine eq_of_same fun e he => ?_
    have hsettled := (settled_readVariables hread' he).2 List.not_mem_nil
    unfold Entry.Settled at hsettled
    rw [hgives] at hsettled
    exact Entry.Settled.same hapart he ((settled_readVariables hread he).2 List.not_mem_nil) hsettled
  refine ⟨given', hread', fun e he => ?_⟩
  rw [mem_given_iff hread' he, mem_given_iff hread he, hgives]

/-- Either both can be read, and come to the same, or a variable is found wrong in both. -/
theorem ofVariables_reordered : ofVariables environment' = ofVariables environment ∨
    ∃ failure failure', Misread failure ∧ Misread failure' ∧
      ofVariables environment = .error failure ∧ ofVariables environment' = .error failure' := by
  cases hread : readVariables [] (standard "") environment with
  | ok found =>
    obtain ⟨given', hread', hgiven⟩ := readVariables_reordered hperm hothers hread
    exact .inl (ofVariables_eq_of_read hread hread' hgiven)
  | error failure =>
    cases hread' : readVariables [] (standard "") environment' with
    | ok found =>
      obtain ⟨hapart, hlegible⟩ := readVariables_ok_iff.1 ⟨_, hread'⟩
      obtain ⟨_, hok⟩ := readVariables_ok_iff (s := standard "").2
        ⟨(apart_reordered hperm hothers).1 hapart, (legible_reordered hperm hothers).1 hlegible⟩
      cases hread.symm.trans hok
    | error failure' =>
      refine .inr ⟨failure, failure', misread_of_readVariables hread, misread_of_readVariables hread', ?_, ?_⟩
      · simp only [ofVariables, hread, bind, Except.bind]
      · simp only [ofVariables, hread', bind, Except.bind]

end Reordered

/-- Variables in another order, and among others whose names do not begin with the prefix, are accepted as the same settings
or not at all, and the services are the same. Where they are refused, so they are in both orders, and for the same reason
unless some variable is found wrong. -/
theorem settings_whatever_order (hperm : environment'.Perm (environment ++ others))
    (hothers : ∀ v ∈ others, ¬ variablePrefix.toList <+: v.1.toList) :
    ((∃ s, ofVariables environment = .ok s) ↔ ∃ s, ofVariables environment' = .ok s) ∧
      (∀ s s', ofVariables environment = .ok s → ofVariables environment' = .ok s' →
        s' = s ∧ s'.services = s.services ∧ s'.lockTtl = s.lockTtl ∧ s'.storeTimeout = s.storeTimeout) ∧
      (∀ s, ofVariables environment' = .ok s ↔ Accepted environment s) ∧
      ∀ failure failure', ofVariables environment = .error failure → ofVariables environment' = .error failure' →
        failure' = failure ∨ Misread failure ∧ Misread failure' := by
  have hpassed : ∀ v ∈ others, settingOf? v.1 = none := fun v hv => settingOf?_eq_none (hothers v hv)
  have hcases := ofVariables_reordered hperm hpassed
  have hsame : ∀ s, ofVariables environment' = .ok s ↔ ofVariables environment = .ok s := by
    intro s
    obtain heq | ⟨_, _, _, _, hfails, hfails'⟩ := hcases
    · rw [heq]
    · rw [hfails, hfails']
      constructor <;> exact fun h => by cases h
  refine ⟨exists_congr fun s => (hsame s).symm, ?_, ?_, ?_⟩
  · intro s s' hs hs'
    obtain rfl : s' = s := Except.ok.inj (hs'.symm.trans ((hsame s).2 hs))
    exact ⟨rfl, rfl, rfl, rfl⟩
  · intro s
    rw [hsame, ofVariables_ok_iff]
  · intro failure failure' hfails hfails'
    obtain heq | ⟨_, _, hmisread, hmisread', hfound, hfound'⟩ := hcases
    · exact .inl (Except.error.inj (hfails'.symm.trans (heq.trans hfails)))
    · cases hfound.symm.trans hfails
      cases hfound'.symm.trans hfails'
      exact .inr ⟨hmisread, hmisread'⟩

/-- Of two variables that are wrong, the first is told. -/
example :
    ofVariables [("TOLLGATE_LOCK_TTL_MS", ""), ("TOLLGATE_STORE_TIMEOUT_MS", "-1")] =
        .error (.configuration (.number .empty "" "LOCK_TTL_MS")) ∧
      ofVariables [("TOLLGATE_STORE_TIMEOUT_MS", "-1"), ("TOLLGATE_LOCK_TTL_MS", "")] =
        .error (.configuration (.number .invalidDigit "-1" "STORE_TIMEOUT_MS")) := ⟨rfl, rfl⟩

def lockingVariables : List (String × String) :=
  [("TOLLGATE_REDIS_URL", "redis://localhost"), ("TOLLGATE_Lock_Ttl_Ms", "+5000"),
    ("TOLLGATE_RATE_LIMIT_WHITELISTED_IPS", "10.0.0.1,10.0.0.2")]

/-- One name begins with something else, the other with the prefix in lower case. -/
def foreignVariables : List (String × String) := [("PATH", "/usr/bin"), ("tollgate_redis_url", "redis://elsewhere")]

def shuffledVariables : List (String × String) :=
  [("tollgate_redis_url", "redis://elsewhere"), ("TOLLGATE_RATE_LIMIT_WHITELISTED_IPS", "10.0.0.1,10.0.0.2"),
    ("TOLLGATE_Lock_Ttl_Ms", "+5000"), ("PATH", "/usr/bin"), ("TOLLGATE_REDIS_URL", "redis://localhost")]

theorem shuffled_settings_lock_five_seconds :
    shuffledVariables.Perm (lockingVariables ++ foreignVariables) ∧
      (∀ v ∈ foreignVariables, ¬ variablePrefix.toList <+: v.1.toList) ∧
      ∃ s, ofVariables shuffledVariables = .ok s ∧ s.storeUrl = "redis://localhost" ∧ s.lockTtl = .ofSeconds 5 ∧
        s.services.rateLimit.whitelist.ips = commaList "10.0.0.1,10.0.0.2" := by
  have hperm : shuffledVariables.Perm (lockingVariables ++ foreignVariables) := by decide
  have hforeign : ∀ v ∈ foreignVariables, ¬ variablePrefix.toList <+: v.1.toList := by decide
  have hsettings : ofVariables lockingVariables = .ok
      { standard "redis://localhost" with
        lockTtlMs := 5000, rateLimitWhitelistedIps := commaList "10.0.0.1,10.0.0.2" } := rfl
  obtain ⟨haccepted, hsame, _, _⟩ := settings_whatever_order hperm hforeign
  obtain ⟨s, hs⟩ := haccepted.1 ⟨_, hsettings⟩
  obtain ⟨rfl, _, _, _⟩ := hsame _ s hsettings hs
  exact ⟨hperm, hforeign, _, hs, rfl, rfl, rfl⟩

end Coordination.Settings
