import Coordination.Proofs.RateLimit.Course

/-! # What one check decides and does

A request is counted in the dimensions it has a value for that are limited and do not list the value. It is blocked by the
first of them that has a live marker or whose count goes past the threshold, and else allowed. The counts in the dimensions
before that one go up by one, that one is counted and marked unless its marker lives, and nothing else changes.
-/
namespace Coordination.RateLimit
open Store (Crash Entry Memory countRequest)

namespace Rules

/-- The request has a value in the dimension by which it is counted. -/
structure Eligible (rules : Rules) (context : Context) (d : Dimension) (value : String) : Prop where
  given : context.given d = some value
  filled : value ≠ ""
  limited : 0 < rules.thresholds.number d
  unlisted : ∀ listed ∈ rules.whitelist.values d,
    (Text.trim listed).toList.map Char.toLower ≠ value.toList.map Char.toLower

theorem eligible?_iff {rules : Rules} {context : Context} {d : Dimension} {value : String} {threshold : Nat} :
    rules.eligible? context d = some (value, threshold) ↔
      rules.Eligible context d value ∧ threshold = rules.thresholds.number d := by
  have hvalue : context.value d = some value ↔ context.given d = some value ∧ value ≠ "" := by
    simp [Context.value, Option.filter_eq_some_iff]
  have hlimited : rules.thresholds.get? d = some threshold ↔
      0 < rules.thresholds.number d ∧ threshold = rules.thresholds.number d := by
    simp [Thresholds.get?, eq_comm]
  have hunlisted : rules.whitelist.contains d value = false ↔ ∀ listed ∈ rules.whitelist.values d,
      (Text.trim listed).toList.map Char.toLower ≠ value.toList.map Char.toLower := by
    simp [Whitelist.contains, Whitelist.sameIgnoringCase]
  rw [eligible?_eq_some, hvalue, hlimited, hunlisted]
  constructor
  · rintro ⟨⟨hgiven, hfilled⟩, ⟨hpos, rfl⟩, hfree⟩
    exact ⟨⟨hgiven, hfilled, hpos, hfree⟩, rfl⟩
  · rintro ⟨⟨hgiven, hfilled, hpos, hfree⟩, rfl⟩
    exact ⟨⟨hgiven, hfilled⟩, ⟨hpos, rfl⟩, hfree⟩

theorem Eligible.eligible? {rules : Rules} {context : Context} {d : Dimension} {value : String}
    (h : rules.Eligible context d value) : rules.eligible? context d = some (value, rules.thresholds.number d) :=
  eligible?_iff.2 ⟨h, rfl⟩

theorem Eligible.unique {rules : Rules} {context : Context} {d : Dimension} {value value' : String}
    (h : rules.Eligible context d value) (h' : rules.Eligible context d value') : value = value' :=
  Option.some.inj (h.given.symm.trans h'.given)

section Records
variable (rules : Rules) (m : Memory) (now : Instant) (nowMs : Int) (d : Dimension) (value : String)

abbrev counter : String := counterKey d value (rules.windowAt nowMs)

/-- The value is refused: its marker lives, or one more request is past the threshold. -/
def Blocks : Prop :=
  (m.visible? now (blockKey d value)).isSome ∨
    ∃ n, m.count? now (rules.counter nowMs d value) = some n ∧ (rules.thresholds.number d : Int) < n + 1

/-- The wait of who is refused: what is left of the marker, or the whole of a new one. -/
def wait : Duration :=
  match m.visible? now (blockKey d value) with
  | none => rules.blockDuration
  | some e => (e.expiresAt.map fun deadline => deadline.timeLeft now).getD rules.defaultRetryAfter

end Records

def marker (rules : Rules) (now : Instant) (nowMs : Int) : Entry := ⟨toString nowMs, some (now.advance rules.blockDuration)⟩

/-- The dimension of a value that is counted and marked when it is refused, which takes that it has no live marker. -/
def fresh (m : Memory) (now : Instant) (d : Dimension) (value : String) : List Dimension :=
  if (m.visible? now (blockKey d value)).isSome then [] else [d]

/-- What the dimensions `ds` decide of a request, and those in which it is counted and in which it is marked. The wait is
told in whole milliseconds, in a word of 64 bits. -/
inductive Decides (rules : Rules) (m : Memory) (now : Instant) (context : Context) (nowMs : Int) (ds : List Dimension) :
    Decision → List Dimension → List Dimension → Prop
  | allowed (h : ∀ d ∈ ds, ∀ value, rules.Eligible context d value → ¬ rules.Blocks m now nowMs d value) :
    Decides rules m now context nowMs ds ⟨false, none, 0⟩ ds []
  | blocked {before after : List Dimension} {d : Dimension} {value : String} (hsplit : ds = before ++ d :: after)
    (hbefore : ∀ d' ∈ before, ∀ value', rules.Eligible context d' value' → ¬ rules.Blocks m now nowMs d' value')
    (heligible : rules.Eligible context d value) (hblocks : rules.Blocks m now nowMs d value) :
    Decides rules m now context nowMs ds
      ⟨true, some d, min ((rules.wait m now d value).nanos / 1000000) 18446744073709551615⟩
      (before ++ fresh m now d value) (fresh m now d value)

/-- Each counter that a check of the dimensions comes to, of a value without a live marker and behind dimensions that do not
block, is an integer below the largest one. -/
def Countable (rules : Rules) (m : Memory) (now : Instant) (context : Context) (nowMs : Int) (ds : List Dimension) : Prop :=
  ∀ before d after value, ds = before ++ d :: after →
    (∀ d' ∈ before, ∀ value', rules.Eligible context d' value' → ¬ rules.Blocks m now nowMs d' value') →
    rules.Eligible context d value → m.visible? now (blockKey d value) = none →
    ∃ n, m.count? now (rules.counter nowMs d value) = some n ∧ n < Memory.counterBounds.high

/-- The records that are written for a request that is counted in some dimensions and marked in some. -/
inductive Writes (rules : Rules) (m : Memory) (now : Instant) (context : Context) (nowMs : Int)
    (counted marked : List Dimension) : String → Entry → Prop
  | count {d : Dimension} {value : String} {n : Int} (hd : d ∈ counted) (h : rules.Eligible context d value)
    (hn : m.count? now (rules.counter nowMs d value) = some n) :
    Writes rules m now context nowMs counted marked (rules.counter nowMs d value)
      ⟨toString (n + 1), some (m.countEnd now (rules.counter nowMs d value) rules.window)⟩
  | mark {d : Dimension} {value : String} (hd : d ∈ marked) (h : rules.Eligible context d value) :
    Writes rules m now context nowMs counted marked (blockKey d value) (rules.marker now nowMs)

end Rules

theorem Decision.blocked_eq (d : Dimension) (wait : Duration) :
    Decision.blocked d wait = ⟨true, some d, min (wait.nanos / 1000000) 18446744073709551615⟩ := by
  have hhigh : (Bounds.unsigned 64).high = 18446744073709551615 := by decide
  have hword : wordOfMillis wait = min (wait.nanos / 1000000) 18446744073709551615 := by
    simp only [wordOfMillis, Bounds.capped, hhigh, Duration.millis, Duration.nanosPerMilli]
    split <;> omega
  rw [Decision.blocked, hword]

section Dimension
variable {rules : Rules} {m m' : Memory} {t : Turn} {context : Context} {nowMs : Int} {d : Dimension} {value : String}
  {n : Int}

theorem writes_counted (heligible : rules.Eligible context d value)
    (hcount : m.count? t.now (rules.counter nowMs d value) = some n) (key : String) (e : Entry) :
    key = rules.counter nowMs d value ∧
        e = ⟨toString (n + 1), some (m.countEnd t.now (rules.counter nowMs d value) rules.window)⟩ ↔
      rules.Writes m t.now context nowMs [d] [] key e := by
  constructor
  · rintro ⟨rfl, rfl⟩
    exact .count List.mem_cons_self heligible hcount
  · intro hwrites
    cases hwrites with
    | mark hd => cases hd
    | count hd h hn =>
      obtain rfl := List.mem_singleton.1 hd
      obtain rfl := heligible.unique h
      obtain rfl := Option.some.inj (hcount.symm.trans hn)
      exact ⟨rfl, rfl⟩

theorem writes_marked (heligible : rules.Eligible context d value) (key : String) (e : Entry) :
    rules.Writes m t.now context nowMs [d] [] key e ∨
        key = blockKey d value ∧ e = rules.marker t.now nowMs ↔
      rules.Writes m t.now context nowMs [d] [d] key e := by
  constructor
  · rintro (hwrites | ⟨rfl, rfl⟩)
    · cases hwrites with
      | count hd h hn => exact .count hd h hn
      | mark hd => cases hd
    · exact .mark List.mem_cons_self heligible
  · intro hwrites
    cases hwrites with
    | count hd h hn => exact .inl (.count hd h hn)
    | mark hd h =>
      obtain rfl := List.mem_singleton.1 hd
      obtain rfl := heligible.unique h
      exact .inr ⟨rfl, rfl⟩

theorem play_marked (rules : Rules) (nowMs : Int) {e : Entry}
    (hmarker : m.visible? t.now (blockKey d value) = some e) :
    ∃ m', t.play (rules.checkDimension d value (rules.thresholds.number d) nowMs).run m [] =
        (.ok (.ok (some (.blocked d (rules.wait m t.now d value)))), m', []) ∧
      ∀ key, ∀ later : Instant, t.now.nanos ≤ later.nanos → m'.visible? later key = m.visible? later key := by
  have hsame : ∀ key, ∀ later : Instant, t.now.nanos ≤ later.nanos →
      (m.serve t.now (.get (blockKey d value))).2.visible? later key = m.visible? later key :=
    fun key later hl => m.visible?_serve hl rfl key
  rw [run_checkDimension, Turn.play_get, hmarker, Option.map_some, afterMarker]
  generalize (m.serve t.now (.get (blockKey d value))).2 = m₁ at hsame
  have hleft := Memory.serve_ttlRemaining ((hsame _ t.now (Nat.le_refl _)).trans hmarker)
  refine ⟨(m₁.serve t.now (.ttlRemaining (blockKey d value))).2, ?_, ?_⟩
  · rw [Turn.play_served (Prod.ext hleft rfl), afterWait, Rules.wait, hmarker]
    rfl
  · exact fun key later hl => (m₁.visible?_serve hl rfl key).trans (hsame key later hl)

theorem play_unmarked (hfits : rules.Fit t.now) (hmarker : m.visible? t.now (blockKey d value) = none)
    (hcount : m.count? t.now (rules.counter nowMs d value) = some n) (hbelow : n < Memory.counterBounds.high) :
    ∃ m₁, m₁.visible? t.now (rules.counter nowMs d value) =
        some ⟨toString (n + 1), some (m.countEnd t.now (rules.counter nowMs d value) rules.window)⟩ ∧
      m.SameBut m₁ t.now (rules.counter nowMs d value) ∧
      if n + 1 ≤ rules.thresholds.number d then
        t.play (rules.checkDimension d value (rules.thresholds.number d) nowMs).run m [] = (.ok (.ok none), m₁, [])
      else ∃ m', t.play (rules.checkDimension d value (rules.thresholds.number d) nowMs).run m [] =
          (.ok (.ok (some (.blocked d rules.blockDuration))), m', []) ∧
        m'.visible? t.now (blockKey d value) = some (rules.marker t.now nowMs) ∧
        m₁.SameBut m' t.now (blockKey d value) := by
  have hsame : ∀ key, ∀ later : Instant, t.now.nanos ≤ later.nanos →
      (m.serve t.now (.get (blockKey d value))).2.visible? later key = m.visible? later key :=
    fun key later hl => m.visible?_serve hl rfl key
  rw [run_checkDimension, Turn.play_get, hmarker, Option.map_none, afterMarker]
  generalize (m.serve t.now (.get (blockKey d value))).2 = m₀ at hsame
  have hnow := hsame (rules.counter nowMs d value) t.now (Nat.le_refl _)
  obtain ⟨m₁, hm₁, hseen, hframe⟩ :=
    Memory.serve_count hfits.window hfits.windowEnds ((Memory.count?_congr hnow).trans hcount) hbelow
  rw [Memory.countEnd_congr hnow] at hseen
  refine ⟨m₁, hseen, fun key hne later hl => (hframe key hne later hl).trans (hsame key later hl), ?_⟩
  rw [Turn.play_served hm₁, afterCount]
  have hnat : (n + 1).toNat ≤ rules.thresholds.number d ↔ n + 1 ≤ rules.thresholds.number d := Int.toNat_le
  split
  · next hle =>
    rw [if_pos (hnat.2 hle)]
    rfl
  · next hlt =>
    obtain ⟨m', hm', hmarked, hframe'⟩ := (m₁.shows_find? t.now (blockKey d value)).serve rfl
      (Store.Cell.serve_set_of_fits hfits.block hfits.blockEnds _ (blockKey d value) (toString nowMs))
    refine ⟨m', ?_, ?_, hframe'⟩
    · rw [if_neg fun hle => hlt (hnat.1 hle), Turn.play_served hm']
      rfl
    · rw [hmarked t.now (Nat.le_refl _), Store.Cell.live_until, if_pos (t.now.lt_advance hfits.block)]
      rfl

theorem not_writes_nothing (key : String) (e : Entry) : ¬ rules.Writes m t.now context nowMs [] [] key e := by
  intro hwrites
  cases hwrites with
  | count hd => cases hd
  | mark hd => cases hd

/-- A dimension lets a request pass that it does not block, and counts it. -/
theorem play_checkDimension (hfits : rules.Fit t.now) (heligible : rules.Eligible context d value)
    (hcount : m.visible? t.now (blockKey d value) = none →
      ∃ n, m.count? t.now (rules.counter nowMs d value) = some n ∧ n < Memory.counterBounds.high) :
    ∃ m', (¬ rules.Blocks m t.now nowMs d value ∧
        t.play (rules.checkDimension d value (rules.thresholds.number d) nowMs).run m [] = (.ok (.ok none), m', []) ∧
        m.Wrote m' t.now (rules.Writes m t.now context nowMs [d] [])) ∨
      (rules.Blocks m t.now nowMs d value ∧
        t.play (rules.checkDimension d value (rules.thresholds.number d) nowMs).run m [] =
          (.ok (.ok (some (.blocked d (rules.wait m t.now d value)))), m', []) ∧
        m.Wrote m' t.now
          (rules.Writes m t.now context nowMs (Rules.fresh m t.now d value) (Rules.fresh m t.now d value))) := by
  cases hmarker : m.visible? t.now (blockKey d value) with
  | some e =>
    have hlive : (m.visible? t.now (blockKey d value)).isSome := Option.isSome_of_eq_some hmarker
    obtain ⟨m', hplay, hsame⟩ := play_marked rules nowMs hmarker
    refine ⟨m', .inr ⟨.inl hlive, hplay, ?_⟩⟩
    rw [Rules.fresh, if_pos hlive]
    exact (Memory.Wrote.nothing hsame).congr fun key e => ⟨False.elim, not_writes_nothing key e⟩
  | none =>
    obtain ⟨n, hcount, hbelow⟩ := hcount hmarker
    have hfresh : Rules.fresh m t.now d value = [d] := by rw [Rules.fresh, hmarker]; rfl
    have hblocks : rules.Blocks m t.now nowMs d value ↔ ¬ n + 1 ≤ rules.thresholds.number d := by
      simp [Rules.Blocks, hmarker, hcount]
    obtain ⟨m₁, hseen, hframe, hplay⟩ := play_unmarked hfits hmarker hcount hbelow
    have hcounted := (Memory.Wrote.single hseen hframe).congr (writes_counted heligible hcount)
    by_cases hle : n + 1 ≤ rules.thresholds.number d
    · rw [if_pos hle] at hplay
      exact ⟨m₁, .inl ⟨fun hb => hblocks.1 hb hle, hplay, hcounted⟩⟩
    · rw [if_neg hle] at hplay
      obtain ⟨m', hplay, hmarked, hframe'⟩ := hplay
      have hwait : rules.wait m t.now d value = rules.blockDuration := by rw [Rules.wait, hmarker]
      rw [hfresh, hwait]
      refine ⟨m', .inr ⟨hblocks.2 hle, hplay, ?_⟩⟩
      refine (hcounted.trans (Memory.Wrote.single hmarked hframe') ?_).congr (writes_marked heligible)
      rintro key e e' hwrites ⟨rfl, _⟩
      obtain ⟨heq, _⟩ := (writes_counted heligible hcount _ e).2 hwrites
      exact blockKey_ne_counterKey _ _ _ _ _ heq

end Dimension

section Dimensions
variable {rules : Rules} {m m₁ m' : Memory} {now : Instant} {t : Turn} {context : Context} {nowMs : Int} {d : Dimension}
  {ds counted marked : List Dimension} {decision : Decision}

theorem same_elsewhere (h : m.Wrote m₁ now (rules.Writes m now context nowMs [d] [])) (hd : d ∉ ds) {d' : Dimension}
    (hmem : d' ∈ ds) (value : String) :
    m₁.visible? now (rules.counter nowMs d' value) = m.visible? now (rules.counter nowMs d' value) ∧
      m₁.visible? now (blockKey d' value) = m.visible? now (blockKey d' value) := by
  have hne : d' ≠ d := fun heq => hd (heq ▸ hmem)
  constructor
  · refine h.frame _ (fun e hwrites => ?_) now (Nat.le_refl _)
    generalize hkey : rules.counter nowMs d' value = key at hwrites
    cases hwrites with
    | count hd => exact hne ((counterKey_inj hkey).1.trans (List.mem_singleton.1 hd))
    | mark hd => cases hd
  · refine h.frame _ (fun e hwrites => ?_) now (Nat.le_refl _)
    generalize hkey : blockKey d' value = key at hwrites
    cases hwrites with
    | count => exact blockKey_ne_counterKey _ _ _ _ _ hkey
    | mark hd => cases hd

theorem blocks_congr {d : Dimension} {value : String}
    (h : m₁.visible? now (rules.counter nowMs d value) = m.visible? now (rules.counter nowMs d value) ∧
      m₁.visible? now (blockKey d value) = m.visible? now (blockKey d value)) :
    rules.Blocks m₁ now nowMs d value ↔ rules.Blocks m now nowMs d value := by
  rw [Rules.Blocks, Rules.Blocks, h.2, Memory.count?_congr h.1]

theorem Rules.Decides.cons (h : rules.Decides m₁ now context nowMs ds decision counted marked) (hd : d ∉ ds)
    (hwrote : m.Wrote m₁ now (rules.Writes m now context nowMs [d] []))
    (hpass : ∀ value, rules.Eligible context d value → ¬ rules.Blocks m now nowMs d value) :
    rules.Decides m now context nowMs (d :: ds) decision (d :: counted) marked := by
  cases h with
  | allowed h =>
    refine .allowed ?_
    intro d' hmem value heligible
    rcases List.mem_cons.1 hmem with rfl | hmem
    · exact hpass value heligible
    · rw [← blocks_congr (same_elsewhere hwrote hd hmem value)]
      exact h d' hmem value heligible
  | @blocked before after d' value hsplit hbefore heligible hblocks =>
    have hmem : d' ∈ ds := hsplit ▸ List.mem_append_right _ List.mem_cons_self
    have hsame := same_elsewhere hwrote hd hmem value
    have hmarker := hsame.2
    have hfresh : fresh m₁ now d' value = fresh m now d' value := by rw [fresh, fresh, hmarker]
    have hwait : rules.wait m₁ now d' value = rules.wait m now d' value := by rw [wait, wait, hmarker]
    rw [hfresh, hwait]
    have hsplit' : d :: ds = (d :: before) ++ d' :: after := by rw [hsplit, List.cons_append]
    refine .blocked hsplit' ?_ heligible ((blocks_congr hsame).1 hblocks)
    intro d'' hmem'' value'' heligible''
    rcases List.mem_cons.1 hmem'' with rfl | hmem''
    · exact hpass value'' heligible''
    · rw [← blocks_congr (same_elsewhere hwrote hd (hsplit ▸ List.mem_append_left _ hmem'') value'')]
      exact hbefore d'' hmem'' value'' heligible''

theorem Rules.Decides.subset (h : rules.Decides m now context nowMs ds decision counted marked) : counted ⊆ ds := by
  cases h with
  | allowed => exact List.Subset.refl _
  | @blocked before after d value hsplit =>
    rw [hsplit, fresh]
    split <;> simp

theorem writes_apart (hd : d ∉ counted) {key : String} {e e' : Entry}
    (h : rules.Writes m now context nowMs [d] [] key e) : ¬ rules.Writes m₁ now context nowMs counted marked key e' := by
  intro h'
  cases h with
  | mark hnone => cases hnone
  | @count d₀ value _ hd₀ =>
    obtain rfl := List.mem_singleton.1 hd₀
    generalize hkey : rules.counter nowMs d₀ value = key at h'
    cases h' with
    | count hmem => exact hd ((counterKey_inj hkey).1 ▸ hmem)
    | mark => exact blockKey_ne_counterKey _ _ _ _ _ hkey.symm

theorem writes_cons (hd : d ∉ counted) (hwrote : m.Wrote m₁ now (rules.Writes m now context nowMs [d] []))
    (key : String) (e : Entry) :
    rules.Writes m now context nowMs [d] [] key e ∨ rules.Writes m₁ now context nowMs counted marked key e ↔
      rules.Writes m now context nowMs (d :: counted) marked key e := by
  constructor
  · rintro (hwrites | hwrites)
    · cases hwrites with
      | count hmem heligible hn => exact .count (List.mem_singleton.1 hmem ▸ List.mem_cons_self) heligible hn
      | mark hmem => cases hmem
    · cases hwrites with
      | mark hmem heligible => exact .mark hmem heligible
      | @count d' value n hmem heligible hn =>
        have hkey := (same_elsewhere hwrote hd hmem value).1
        rw [Memory.countEnd_congr hkey]
        exact .count (List.mem_cons_of_mem d hmem) heligible ((Memory.count?_congr hkey).symm.trans hn)
  · intro hwrites
    cases hwrites with
    | mark hmem heligible => exact .inr (.mark hmem heligible)
    | @count d' value n hmem heligible hn =>
      rcases List.mem_cons.1 hmem with rfl | hmem
      · exact .inl (.count List.mem_cons_self heligible hn)
      · have hkey := (same_elsewhere hwrote hd hmem value).1
        rw [← Memory.countEnd_congr hkey]
        exact .inr (.count hmem heligible ((Memory.count?_congr hkey).trans hn))

theorem wrote_cons (hd : d ∉ counted) (h : m.Wrote m₁ now (rules.Writes m now context nowMs [d] []))
    (h' : m₁.Wrote m' now (rules.Writes m₁ now context nowMs counted marked)) :
    m.Wrote m' now (rules.Writes m now context nowMs (d :: counted) marked) :=
  (h.trans h' fun _ _ _ => writes_apart hd).congr (writes_cons hd h)

/-- The dimensions have come to a decision, and the memory is left as they leave it. -/
def Rules.Resolves (rules : Rules) (m : Memory) (now : Instant) (context : Context) (nowMs : Int) (ds : List Dimension)
    (played : Except Crash (Except Failure Decision) × Memory × Faults) : Prop :=
  ∃ m' decision counted marked, played = (.ok (.ok decision), m', []) ∧
    rules.Decides m now context nowMs ds decision counted marked ∧
    m.Wrote m' now (rules.Writes m now context nowMs counted marked)

theorem Rules.Resolves.cons {played : Except Crash (Except Failure Decision) × Memory × Faults}
    (h : rules.Resolves m₁ now context nowMs ds played) (hd : d ∉ ds)
    (hwrote : m.Wrote m₁ now (rules.Writes m now context nowMs [d] []))
    (hpass : ∀ value, rules.Eligible context d value → ¬ rules.Blocks m now nowMs d value) :
    rules.Resolves m now context nowMs (d :: ds) played := by
  obtain ⟨m', decision, counted, marked, hplay, hdecides, hwrote'⟩ := h
  exact ⟨m', decision, d :: counted, marked, hplay, hdecides.cons hd hwrote hpass,
    wrote_cons (fun hmem => hd (hdecides.subset hmem)) hwrote hwrote'⟩

theorem Rules.Countable.tail (h : rules.Countable m now context nowMs (d :: ds)) (hd : d ∉ ds)
    (hwrote : m.Wrote m₁ now (rules.Writes m now context nowMs [d] []))
    (hpass : ∀ value, rules.Eligible context d value → ¬ rules.Blocks m now nowMs d value) :
    rules.Countable m₁ now context nowMs ds := by
  intro before d' after value hsplit hbefore heligible hmarker
  have hmem : d' ∈ ds := hsplit ▸ List.mem_append_right _ List.mem_cons_self
  obtain ⟨hcounter, hmarked⟩ := same_elsewhere hwrote hd hmem value
  rw [Memory.count?_congr hcounter]
  refine h (d :: before) d' after value (by rw [hsplit, List.cons_append]) ?_ heligible (hmarked.symm.trans hmarker)
  intro d'' hmem value' heligible'
  rcases List.mem_cons.1 hmem with rfl | hmem
  · exact hpass value' heligible'
  · rw [← blocks_congr (same_elsewhere hwrote hd (hsplit ▸ List.mem_append_left _ hmem) value')]
    exact hbefore d'' hmem value' heligible'

theorem play_checkDimensions (hfits : rules.Fit t.now) (hnodup : ds.Nodup)
    (hcounts : rules.Countable m t.now context nowMs ds) :
    rules.Resolves m t.now context nowMs ds (t.play (rules.checkDimensions context nowMs ds).run m []) := by
  induction ds generalizing m with
  | nil =>
    exact ⟨m, .allowed, [], [], rfl, .allowed (by simp),
      (Memory.Wrote.nothing fun _ _ _ => rfl).congr fun key e => ⟨False.elim, not_writes_nothing key e⟩⟩
  | cons d rest ih =>
    obtain ⟨hd, hrest⟩ := List.nodup_cons.1 hnodup
    rw [run_checkDimensions_cons]
    cases helig : rules.eligible? context d with
    | none =>
      have hnot : ∀ value, ¬ rules.Eligible context d value := by
        intro value heligible
        rw [heligible.eligible?] at helig
        cases helig
      have hwrote : m.Wrote m t.now (rules.Writes m t.now context nowMs [d] []) := by
        refine (Memory.Wrote.nothing fun _ _ _ => rfl).congr fun key e => ⟨False.elim, fun hwrites => ?_⟩
        cases hwrites with
        | count hmem heligible => exact hnot _ (List.mem_singleton.1 hmem ▸ heligible)
        | mark hmem => cases hmem
      have hpass : ∀ value, rules.Eligible context d value → ¬ rules.Blocks m t.now nowMs d value :=
        fun value heligible => absurd heligible (hnot value)
      exact (ih hrest (hcounts.tail hd hwrote hpass)).cons hd hwrote hpass
    | some found =>
      obtain ⟨value, threshold⟩ := found
      obtain ⟨heligible, rfl⟩ := Rules.eligible?_iff.1 helig
      obtain ⟨m₁, ⟨hpass, hplay, hwrote⟩ | ⟨hblocks, hplay, hwrote⟩⟩ :=
        play_checkDimension hfits heligible (hcounts [] d rest value rfl (by simp) heligible)
      · have hpass' : ∀ value', rules.Eligible context d value' → ¬ rules.Blocks m t.now nowMs d value' :=
          fun value' heligible' => heligible.unique heligible' ▸ hpass
        simp only [Turn.play_bind, hplay]
        exact (ih hrest (hcounts.tail hd hwrote hpass')).cons hd hwrote hpass'
      · simp only [Turn.play_bind, hplay, Decision.blocked_eq]
        exact ⟨m₁, _, _, _, rfl, .blocked (List.nil_append (d :: rest)).symm (by simp) heligible hblocks, hwrote⟩

end Dimensions

def townRules : Rules := ⟨.ofSeconds 60, .ofSeconds 300, .ofSeconds 60, ⟨0, 2, 1, 9⟩, { countries := [" XX "] }⟩

def visitor : Context := ⟨some "f", some "a", some "b", some "xx"⟩

def visited : Memory := ((⟨⟨0⟩, "", 0⟩ : Turn).play (townRules.checkAt visitor 0).run .empty []).2.1

end Coordination.RateLimit
