import Coordination.Proofs.RateLimit.Decision

/-! # How long a block lasts

The request that takes a count past its threshold marks the value. Up to the end of the marker whoever carries the value is
refused, in that dimension or an earlier one, and neither the marker nor any counter of the value is touched, whatever else
is checked meanwhile and whatever fails. From then on the marker is gone, and a value that is refused once more has gone past
the threshold once more.
-/
namespace Coordination.RateLimit
open Store (Cell Crash Entry Memory countRequest)

inductive Step where
  | check (context : Context) (nowMs : Int) (faults : Faults)
  | aside (r : Store.Request)
  | advance (d : Duration)

structure Session where
  memory : Memory
  now : Instant

namespace Session

abbrev turn (x : Session) : Turn := ⟨x.now, "", 0⟩

def check (rules : Rules) (x : Session) (context : Context) (nowMs : Int) (faults : Faults) :
    Except Crash (Except Failure Decision) × Memory :=
  let played := x.turn.play (rules.checkAt context nowMs).run x.memory faults
  (played.1, played.2.1)

def step (rules : Rules) (x : Session) : Step → Session
  | .check context nowMs faults => { x with memory := (x.check rules context nowMs faults).2 }
  | .aside r => { x with memory := (x.memory.serve x.now r).2 }
  | .advance d => { x with now := x.now.advance d }

def run (rules : Rules) (x : Session) (steps : List Step) : Session := steps.foldl (step rules) x

theorem run_concat (rules : Rules) (x : Session) (steps : List Step) (step : Step) :
    x.run rules (steps ++ [step]) = (x.run rules steps).step rules step := List.foldl_append

end Session

/-- The keys of the marker and the counters of a value. -/
inductive Record (d : Dimension) (value : String) : String → Prop
  | marker : Record d value (blockKey d value)
  | counter (window : Int) : Record d value (counterKey d value window)

theorem Record.ne {d d' : Dimension} {value value' key : String} (h : Record d value key) (hne : d' ≠ d) (window : Int) :
    key ≠ blockKey d' value' ∧ key ≠ counterKey d' value' window := by
  cases h with
  | marker => exact ⟨fun heq => hne (blockKey_inj heq).1.symm, blockKey_ne_counterKey _ _ _ _ _⟩
  | counter => exact ⟨(blockKey_ne_counterKey _ _ _ _ _).symm, fun heq => hne (counterKey_inj heq).1.symm⟩

section Checks
variable {rules : Rules} {t : Turn} {m : Memory} {context : Context} {nowMs : Int} {d : Dimension} {value : String}
  {threshold : Nat}

theorem ensures_refused (hlive : (m.visible? t.now (blockKey d value)).isSome) :
    t.Ensures (rules.checkDimension d value threshold nowMs).run m fun outcome m' =>
      (∀ key c, m.Shows t.now key c → m'.Shows t.now key c) ∧ outcome ≠ .ok (.ok none) := by
  obtain ⟨e, hvisible⟩ := Option.isSome_iff_exists.1 hlive
  rw [run_checkDimension]
  refine Turn.ensures_store (fun failure => Turn.ensures_done ⟨fun _ _ hc => hc, by simp⟩) ?_ ?_
  · intro reply m₁ hserve
    have hsame : ∀ key c, m.Shows t.now key c → m₁.Shows t.now key c :=
      fun key c hc => hc.kept (Store.Request.leaves_of_reads rfl) hserve
    have hreply := m.serve_get t.now (blockKey d value)
    rw [hserve, hvisible] at hreply
    obtain rfl : reply = .ok (some e.value) := Except.ok.inj hreply
    refine Turn.ensures_store (fun failure => Turn.ensures_done ⟨hsame, by simp⟩) ?_ ?_
    · intro reply m₂ hserve₂
      have hsame₂ : ∀ key c, m.Shows t.now key c → m₂.Shows t.now key c :=
        fun key c hc => (hsame key c hc).kept (Store.Request.leaves_of_reads rfl) hserve₂
      cases reply with
      | error failure => exact Turn.ensures_done ⟨hsame₂, by simp⟩
      | ok left => exact Turn.ensures_done ⟨hsame₂, by simp⟩
    · intro c m₂ hserve₂
      exact ⟨fun key c hc => (hsame key c hc).kept (Store.Request.leaves_of_reads rfl) hserve₂, by simp⟩
  · intro c m₁ hserve
    exact ⟨fun key c hc => hc.kept (Store.Request.leaves_of_reads rfl) hserve, by simp⟩

/-- In one dimension the records of another are left alone. -/
theorem ensures_elsewhere : t.Ensures (rules.checkDimension d value threshold nowMs).run m fun _ m' =>
    ∀ d' value' key c, d ≠ d' → Record d' value' key → m.Shows t.now key c → m'.Shows t.now key c := by
  intro faults d' value' key c hne hrecord hc
  obtain ⟨hmarker, hcounter⟩ := hrecord.ne hne (rules.windowAt nowMs)
  exact Turn.ensures_shows (checkDimension_avoids hmarker hcounter) hc faults

/-- Who carries a marked value is refused there or before, and leaves the records of the value alone. -/
theorem ensures_barred (t : Turn) (nowMs : Int) {before after : List Dimension} (hnodup : (before ++ d :: after).Nodup)
    (heligible : rules.Eligible context d value) (hlive : (m.visible? t.now (blockKey d value)).isSome) :
    t.Ensures (rules.checkDimensions context nowMs (before ++ d :: after)).run m fun outcome m' =>
      (∀ key c, Record d value key → m.Shows t.now key c → m'.Shows t.now key c) ∧
        ∀ decision, outcome = .ok (.ok decision) → ∃ d' ∈ before ++ [d], ∃ ms, decision = ⟨true, some d', ms⟩ := by
  -- Over the dimensions that are checked before `d`: none of them touches the records of `d`, so its marker is still seen.
  induction before generalizing m with
  | nil =>
    rw [List.nil_append, run_checkDimensions_cons, heligible.eligible?]
    refine ((ensures_refused hlive).and ensures_blocks).bind ?_ ?_
    · rintro outcome m₁ ⟨⟨hsame, hnot⟩, hblocks⟩
      rcases outcome with failure | _ | decision
      · exact Turn.ensures_done ⟨fun key c _ => hsame key c, by simp⟩
      · exact absurd rfl hnot
      · obtain ⟨ms, rfl⟩ := hblocks decision rfl
        refine Turn.ensures_done ⟨fun key c _ => hsame key c, ?_⟩
        rintro _ ⟨⟩
        exact ⟨d, by simp, ms, rfl⟩
    · rintro c m₁ ⟨⟨hsame, _⟩, _⟩
      exact ⟨fun key c _ => hsame key c, by simp⟩
  | cons d' before ih =>
    rw [List.cons_append] at hnodup ⊢
    obtain ⟨hd', hrest⟩ := List.nodup_cons.1 hnodup
    have hne : d' ≠ d := fun heq => hd' (heq ▸ List.mem_append_right _ List.mem_cons_self)
    rw [run_checkDimensions_cons]
    cases helig : rules.eligible? context d' with
    | none =>
      refine (ih hrest hlive).mono ?_
      rintro outcome m' ⟨hsame, hdecided⟩
      exact ⟨hsame, fun decision ho => (hdecided decision ho).imp fun _ h => ⟨List.mem_cons_of_mem d' h.1, h.2⟩⟩
    | some counted =>
      obtain ⟨value', threshold'⟩ := counted
      have hkept : t.Ensures (rules.checkDimension d' value' threshold' nowMs).run m fun _ m' =>
          ∀ key c, Record d value key → m.Shows t.now key c → m'.Shows t.now key c :=
        ensures_elsewhere.mono fun _ _ h key c => h d value key c hne
      refine (hkept.and ensures_blocks).bind ?_ ?_
      · rintro outcome m₁ ⟨hsame, hblocks⟩
        rcases outcome with failure | _ | decision
        · exact Turn.ensures_done ⟨hsame, by simp⟩
        · have hvisible := hsame _ _ .marker (m.shows_find? t.now (blockKey d value)) t.now (Nat.le_refl _)
          refine (ih hrest (hvisible ▸ hlive)).mono ?_
          rintro outcome m' ⟨hsame', hdecided⟩
          refine ⟨fun key c hrecord hc => hsame' key c hrecord (hsame key c hrecord hc), fun decision ho => ?_⟩
          exact (hdecided decision ho).imp fun _ h => ⟨List.mem_cons_of_mem d' h.1, h.2⟩
        · obtain ⟨ms, rfl⟩ := hblocks decision rfl
          refine Turn.ensures_done ⟨hsame, ?_⟩
          rintro _ ⟨⟩
          exact ⟨d', List.mem_cons_self, ms, rfl⟩
      · rintro c m₁ ⟨hsame, _⟩
        exact ⟨hsame, by simp⟩

/-- What a check makes of the marker of a value: it is kept, or one that is gone is written anew for who carries the
value. -/
inductive Remarked (rules : Rules) (now : Instant) (context : Context) (nowMs : Int) (d : Dimension) (value : String)
    (c : Cell) : Cell → Prop
  | kept : Remarked rules now context nowMs d value c c
  | anew (hgiven : context.given d = some value) (hgone : c.live now = none) :
    Remarked rules now context nowMs d value c (some (rules.marker now nowMs))

theorem serve_mark (rules : Rules) (now : Instant) (d : Dimension) (value : String) (nowMs : Int) (c : Cell) :
    c.serve now (markRequest rules d value nowMs) = (.ok (.ok ()), some (rules.marker now nowMs)) ∨
      (c.serve now (markRequest rules d value nowMs)).1 ≠ .ok (.ok ()) ∧
        (c.serve now (markRequest rules d value nowMs)).2 = c := by
  rcases c.serve_set now (blockKey d value) (toString nowMs) rules.blockDuration with ⟨deadline, hends, hserve⟩ | hrefused
  · obtain rfl : deadline = now.advance rules.blockDuration := congrArg Instant.mk hends
    exact .inl hserve
  · exact .inr hrefused

/-- The memory shows under the marker's key what a check may have made of the cell. -/
def MarkedFrom (rules : Rules) (now : Instant) (context : Context) (nowMs : Int) (d : Dimension) (value : String) (c : Cell)
    (m : Memory) : Prop :=
  ∃ c', m.Shows now (blockKey d value) c' ∧ Remarked rules now context nowMs d value c c'

theorem markedFrom_kept {c : Cell} (h : m.Shows t.now (blockKey d value) c) :
    MarkedFrom rules t.now context nowMs d value c m :=
  ⟨c, h, .kept⟩

theorem ensures_marking {c : Cell} (hgiven : context.given d = some value) (hgone : c.live t.now = none)
    (hc : m.Shows t.now (blockKey d value) c) (reply : Except Failure Int) :
    t.Ensures (afterCount rules d value threshold nowMs reply) m fun _ =>
      MarkedFrom rules t.now context nowMs d value c := by
  have hmarked : ∀ {o m'}, m.serve t.now (markRequest rules d value nowMs) = (o, m') →
      MarkedFrom rules t.now context nowMs d value c m' := by
    intro o m' hserve
    have hshows := (Memory.serve_agrees hc (r := markRequest rules d value nowMs) rfl).shows
    rw [hserve] at hshows
    rcases serve_mark rules t.now d value nowMs c with h | ⟨_, h⟩
    · rw [h] at hshows
      exact ⟨_, hshows, .anew hgiven hgone⟩
    · exact markedFrom_kept (h ▸ hshows)
  cases reply with
  | error failure => exact Turn.ensures_done (markedFrom_kept hc)
  | ok count =>
    rw [afterCount]
    split
    · exact Turn.ensures_done (markedFrom_kept hc)
    · refine Turn.ensures_store (fun failure => Turn.ensures_done (markedFrom_kept hc)) ?_ fun _ _ => hmarked
      intro reply m' hserve
      cases reply with
      | error failure => exact Turn.ensures_done (hmarked hserve)
      | ok _ => exact Turn.ensures_done (hmarked hserve)

theorem ensures_remarked_here {c : Cell} (hgiven : context.given d = some value)
    (hc : m.Shows t.now (blockKey d value) c) : t.Ensures (rules.checkDimension d value threshold nowMs).run m fun _ =>
      MarkedFrom rules t.now context nowMs d value c := by
  cases hlive : c.live t.now with
  | some e =>
    have hvisible := (hc t.now (Nat.le_refl _)).trans hlive
    exact (ensures_refused (Option.isSome_of_eq_some hvisible)).mono fun _ _ h => markedFrom_kept (h.1 _ _ hc)
  | none =>
    have hreply := m.serve_get t.now (blockKey d value)
    rw [hc t.now (Nat.le_refl _), hlive] at hreply
    rw [run_checkDimension]
    refine Turn.ensures_store (fun failure => Turn.ensures_done (markedFrom_kept hc)) ?_ ?_
    · intro reply m₁ hserve
      have hc₁ := hc.kept (Store.Request.leaves_of_reads rfl) hserve
      rw [hserve] at hreply
      obtain rfl : reply = .ok none := Except.ok.inj hreply
      refine Turn.ensures_store (fun failure => Turn.ensures_done (markedFrom_kept hc₁)) ?_ ?_
      · exact fun reply m₂ hserve₂ => ensures_marking hgiven hlive (hc₁.kept (count_leaves ..) hserve₂) reply
      · exact fun _ m₂ hserve₂ => markedFrom_kept (hc₁.kept (count_leaves ..) hserve₂)
    · exact fun _ m₁ hserve => markedFrom_kept (hc.kept (Store.Request.leaves_of_reads rfl) hserve)

theorem ensures_remarked (rules : Rules) (t : Turn) (context : Context) (nowMs : Int) {c : Cell} {ds : List Dimension}
    (hnodup : ds.Nodup) (hc : m.Shows t.now (blockKey d value) c) :
    t.Ensures (rules.checkDimensions context nowMs ds).run m fun _ =>
      MarkedFrom rules t.now context nowMs d value c := by
  induction ds generalizing m with
  | nil => exact Turn.ensures_done (markedFrom_kept hc)
  | cons d' rest ih =>
    obtain ⟨hd', hrest⟩ := List.nodup_cons.1 hnodup
    rw [run_checkDimensions_cons]
    cases helig : rules.eligible? context d' with
    | none => exact ih hrest hc
    | some counted =>
      obtain ⟨value', threshold'⟩ := counted
      by_cases hhere : d' = d ∧ value' = value
      · obtain ⟨rfl, rfl⟩ := hhere
        have hgiven := (Rules.eligible?_iff.1 helig).1.given
        refine (ensures_remarked_here hgiven hc).bind ?_ fun _ _ h => h
        rintro outcome m₁ ⟨c', hc', hremarked⟩
        rcases outcome with failure | _ | decision
        · exact Turn.ensures_done ⟨c', hc', hremarked⟩
        · have havoids : (rules.checkDimensions context nowMs rest : Action Unit Decision).run.Avoids (blockKey d' value') := by
            refine checkDimensions_avoids fun d'' hmem value'' _ => (Record.marker : Record d' value' _).ne ?_ _
            rintro rfl
            exact hd' hmem
          exact (Turn.ensures_shows havoids hc').mono fun _ _ h => ⟨c', h, hremarked⟩
        · exact Turn.ensures_done ⟨c', hc', hremarked⟩
      · have havoids : (rules.checkDimension d' value' threshold' nowMs : Action Unit (Option Decision)).run.Avoids
            (blockKey d value) :=
          checkDimension_avoids (fun heq => hhere ⟨(blockKey_inj heq).1.symm, (blockKey_inj heq).2.symm⟩)
            (blockKey_ne_counterKey _ _ _ _ _)
        refine (Turn.ensures_shows havoids hc).bind ?_ fun _ _ => markedFrom_kept
        intro outcome m₁ hc₁
        rcases outcome with failure | _ | decision
        · exact Turn.ensures_done (markedFrom_kept hc₁)
        · exact ih hrest hc₁
        · exact Turn.ensures_done (markedFrom_kept hc₁)

/-- What a dimension that has come to a decision has found: a marker that lives, or a count. Then it lets the request pass
up to the threshold, and past it the value is marked. -/
inductive Judged (rules : Rules) (m : Memory) (now : Instant) (nowMs : Int) (d : Dimension) (value : String)
    (threshold : Nat) (m' : Memory) : Option Decision → Prop
  | marked (found : Decision) (hmarker : (m.visible? now (blockKey d value)).isSome) :
    Judged rules m now nowMs d value threshold m' (some found)
  | passed {n : Int} (hcount : m.count? now (rules.counter nowMs d value) = some n) (hle : n + 1 ≤ threshold) :
    Judged rules m now nowMs d value threshold m' none
  | crossed (found : Decision) {n : Int} (hcount : m.count? now (rules.counter nowMs d value) = some n)
    (hlt : threshold < n + 1) (hshows : m'.Shows now (blockKey d value) (some (rules.marker now nowMs))) :
    Judged rules m now nowMs d value threshold m' (some found)

theorem shows_of_marked {m' : Memory} (h : m.serve t.now (markRequest rules d value nowMs) = (.ok (.ok ()), m')) :
    m'.Shows t.now (blockKey d value) (some (rules.marker t.now nowMs)) := by
  have hagrees := Memory.serve_agrees (m.shows_find? t.now (blockKey d value)) (r := markRequest rules d value nowMs) rfl
  rw [h] at hagrees
  rcases serve_mark rules t.now d value nowMs (m.entries.find? (blockKey d value)) with hserve | ⟨hne, _⟩
  · have hshows := hagrees.shows
    rwa [hserve] at hshows
  · exact absurd hagrees.outcome.symm hne

theorem ensures_judged : t.Ensures (rules.checkDimension d value threshold nowMs).run m fun outcome m' =>
    ∀ found, outcome = .ok (.ok found) → Judged rules m t.now nowMs d value threshold m' found := by
  rw [run_checkDimension]
  refine Turn.ensures_store (fun failure => Turn.ensures_done (by simp)) ?_ (by simp)
  intro reply m₁ hserve
  have hreply := m.serve_get t.now (blockKey d value)
  have hsame := m.visible?_serve (Nat.le_refl t.now.nanos) (r := .get (blockKey d value)) rfl
    (rules.counter nowMs d value)
  rw [hserve] at hreply hsame
  obtain rfl : reply = .ok ((m.visible? t.now (blockKey d value)).map Entry.value) := Except.ok.inj hreply
  cases hmarker : m.visible? t.now (blockKey d value) with
  | some e =>
    refine Turn.ensures_store (fun failure => Turn.ensures_done (by simp)) ?_ (by simp)
    intro reply m₂ _
    cases reply with
    | error failure => exact Turn.ensures_done (by simp)
    | ok left =>
      refine Turn.ensures_done ?_
      rintro _ ⟨⟩
      exact .marked _ (Option.isSome_of_eq_some hmarker)
  | none =>
    refine Turn.ensures_store (fun failure => Turn.ensures_done (by simp)) ?_ (by simp)
    intro reply m₂ hserve₂
    cases reply with
    | error failure => exact Turn.ensures_done (by simp)
    | ok count =>
      have hcount := (Memory.count?_congr hsame).symm.trans (Memory.count?_of_served (congrArg Prod.fst hserve₂))
      rw [afterCount]
      split
      · next hle =>
        refine Turn.ensures_done ?_
        rintro _ ⟨⟩
        exact .passed hcount (by omega)
      · next hlt =>
        refine Turn.ensures_store (fun failure => Turn.ensures_done (by simp)) ?_ (by simp)
        intro reply m₃ hserve₃
        cases reply with
        | error failure => exact Turn.ensures_done (by simp)
        | ok _ =>
          refine Turn.ensures_done ?_
          rintro _ ⟨⟩
          exact .crossed _ hcount (by omega) (shows_of_marked hserve₃)

end Checks

/-- The check goes past the threshold of the value, and no earlier dimension blocks it. -/
structure Rules.Crosses (rules : Rules) (m : Memory) (now : Instant) (context : Context) (nowMs : Int) (d : Dimension)
    (value : String) : Prop where
  eligible : rules.Eligible context d value
  unmarked : m.visible? now (blockKey d value) = none
  past : ∃ n, m.count? now (rules.counter nowMs d value) = some n ∧ (rules.thresholds.number d : Int) < n + 1
  first : ∀ before after, Dimension.all = before ++ d :: after → ∀ d' ∈ before, ∀ value',
    rules.Eligible context d' value' → ¬ rules.Blocks m now nowMs d' value'

/-- A check that comes to a decision and goes past the threshold of a value marks it. -/
theorem ensures_crossed {rules : Rules} {m : Memory} {context : Context} {d : Dimension} {value : String} (t : Turn)
    (nowMs : Int) {before after : List Dimension} (hnodup : (before ++ d :: after).Nodup)
    (heligible : rules.Eligible context d value) (hunmarked : m.visible? t.now (blockKey d value) = none) {n : Int}
    (hcount : m.count? t.now (rules.counter nowMs d value) = some n) (hpast : (rules.thresholds.number d : Int) < n + 1)
    (hfirst : ∀ d' ∈ before, ∀ value', rules.Eligible context d' value' → ¬ rules.Blocks m t.now nowMs d' value') :
    t.Ensures (rules.checkDimensions context nowMs (before ++ d :: after)).run m fun outcome m' =>
      ∀ decision, outcome = .ok (.ok decision) → m'.Shows t.now (blockKey d value) (some (rules.marker t.now nowMs)) := by
  -- A check of an earlier dimension changes none of the records that `hcount`, `hunmarked` and `hfirst` are about, which
  -- is why they can be asked of the memory before the whole check.
  induction before generalizing m with
  | nil =>
    rw [List.nil_append, run_checkDimensions_cons, heligible.eligible?]
    refine ensures_judged.bind ?_ (by simp)
    intro outcome m₁ hjudged
    rcases outcome with failure | _ | decision
    · exact Turn.ensures_done (by simp)
    · cases hjudged _ rfl with
      | passed hcount' hle =>
        obtain rfl := Option.some.inj (hcount.symm.trans hcount')
        omega
    · refine Turn.ensures_done fun _ _ => ?_
      cases hjudged _ rfl with
      | marked _ hmarker =>
        rw [hunmarked] at hmarker
        cases hmarker
      | crossed _ _ _ hshows => exact hshows
  | cons d' before ih =>
    obtain ⟨hd', hrest⟩ := List.nodup_cons.1 hnodup
    have hne : ∀ d'' ∈ before ++ d :: after, d' ≠ d'' := fun d'' hmem heq => hd' (heq ▸ hmem)
    obtain ⟨hhere, hfirst⟩ := List.forall_mem_cons.1 hfirst
    rw [List.cons_append, run_checkDimensions_cons]
    cases helig : rules.eligible? context d' with
    | none => exact ih hrest hunmarked hcount hfirst
    | some counted =>
      obtain ⟨value', threshold'⟩ := counted
      obtain ⟨heligible', rfl⟩ := Rules.eligible?_iff.1 helig
      refine (ensures_elsewhere.and ensures_judged).bind ?_ (by simp)
      rintro outcome m₁ ⟨hkept, hjudged⟩
      have hsame : ∀ d'' ∈ before ++ d :: after, ∀ value'' key, Record d'' value'' key →
          m₁.visible? t.now key = m.visible? t.now key := fun d'' hmem value'' key hrecord =>
        hkept d'' value'' key _ (hne d'' hmem) hrecord (m.shows_find? t.now key) t.now (Nat.le_refl _)
      rcases outcome with failure | _ | decision
      · exact Turn.ensures_done (by simp)
      · refine ih hrest ((hsame d (by simp) value _ .marker).trans hunmarked)
          ((Memory.count?_congr (hsame d (by simp) value _ (.counter _))).trans hcount) ?_
        intro d'' hmem value'' heligible''
        have hmem' : d'' ∈ before ++ d :: after := List.mem_append_left _ hmem
        rw [blocks_congr ⟨hsame d'' hmem' value'' _ (.counter _), hsame d'' hmem' value'' _ .marker⟩]
        exact hfirst d'' hmem value'' heligible''
      · refine absurd ?_ (hhere value' heligible')
        cases hjudged _ rfl with
        | marked _ hmarker => exact .inl hmarker
        | crossed _ hcount' hlt _ => exact .inr ⟨_, hcount', hlt⟩

theorem Rules.Crosses.marks {rules : Rules} {x : Session} {context : Context} {nowMs : Int} {d : Dimension} {value : String}
    (h : rules.Crosses x.memory x.now context nowMs d value) {faults : Faults} {decision : Decision}
    (hdone : (x.check rules context nowMs faults).1 = .ok (.ok decision)) :
    (x.check rules context nowMs faults).2.Shows x.now (blockKey d value) (some (rules.marker x.now nowMs)) := by
  obtain ⟨before, after, hsplit⟩ := List.append_of_mem (Dimension.mem_all d)
  have hnodup : (before ++ d :: after).Nodup := hsplit ▸ (by decide : Dimension.all.Nodup)
  obtain ⟨n, hcount, hpast⟩ := h.past
  have hcrossed := ensures_crossed x.turn nowMs hnodup h.eligible h.unmarked hcount hpast (h.first before after hsplit)
  rw [← hsplit] at hcrossed
  exact hcrossed faults decision hdone

/-- A check of the run that has marked a value, with the entry that it wrote: it came at `lapse` or later, carried the value
and found no marker. -/
def Marks (rules : Rules) (x : Session) (d : Dimension) (value : String) (lapse : Instant) (steps : List Step) (e : Entry) :
    Prop :=
  ∃ before context nowMs faults after, steps = before ++ .check context nowMs faults :: after ∧
    let y := x.run rules before
    context.given d = some value ∧ lapse.nanos ≤ y.now.nanos ∧ y.memory.visible? y.now (blockKey d value) = none ∧
      e = rules.marker y.now nowMs

/-- The marker that was there first is still the last one, or it is over and a later one has taken its place. -/
def Lasting (rules : Rules) (x : Session) (d : Dimension) (value : String) (first : Entry) (lapse : Instant)
    (steps : List Step) : Prop :=
  let y := x.run rules steps
  ∃ e, y.memory.Shows y.now (blockKey d value) (some e) ∧
    (e = first ∨ lapse.nanos ≤ y.now.nanos ∧ Marks rules x d value lapse steps e)

section Runs
variable {rules : Rules} {x : Session} {d : Dimension} {value : String} {lapse : Instant} {first e : Entry}
  {steps : List Step}

theorem Marks.append (h : Marks rules x d value lapse steps e) (more : List Step) :
    Marks rules x d value lapse (steps ++ more) e := by
  obtain ⟨before, context, nowMs, faults, after, rfl, hmarks⟩ := h
  exact ⟨before, context, nowMs, faults, after ++ more, by rw [List.append_assoc, List.cons_append], hmarks⟩

theorem Lasting.step (h : Lasting rules x d value first lapse steps) (hfirst : first.expiresAt = some lapse) {step : Step}
    (haside : ∀ r, step = .aside r → r.leaves (blockKey d value) = true) :
    Lasting rules x d value first lapse (steps ++ [step]) := by
  obtain ⟨e, hshows, horigin⟩ := h
  have hkept : ∀ z : Session, (x.run rules steps).now.nanos ≤ z.now.nanos → e = first ∨ lapse.nanos ≤ z.now.nanos ∧
      Marks rules x d value lapse (steps ++ [step]) e :=
    fun z hle => horigin.imp_right fun h => ⟨Nat.le_trans h.1 hle, h.2.append [step]⟩
  rw [Lasting, Session.run_concat]
  cases step with
  | aside r => exact ⟨e, hshows.kept (haside r rfl) rfl, hkept _ (Nat.le_refl _)⟩
  | advance d' =>
    exact ⟨e, hshows.later (Nat.le_add_right ..), hkept ((x.run rules steps).step rules (.advance d')) (Nat.le_add_right ..)⟩
  | check context nowMs faults =>
    obtain ⟨c', hshows', hremarked⟩ := ensures_remarked rules (x.run rules steps).turn context nowMs
      (by decide : Dimension.all.Nodup) hshows faults
    cases hremarked with
    | kept => exact ⟨e, hshows', hkept _ (Nat.le_refl _)⟩
    | anew hgiven hgone =>
      have hover : lapse.nanos ≤ (x.run rules steps).now.nanos := by
        rcases horigin with rfl | ⟨hover, _⟩
        · obtain ⟨text, _⟩ := e
          obtain rfl := hfirst
          rw [show (x.run rules steps).turn.now = (x.run rules steps).now from rfl, Cell.live_until] at hgone
          exact Nat.le_of_not_lt fun hlt => by rw [if_pos hlt] at hgone; cases hgone
        · exact hover
      have hnone := (hshows _ (Nat.le_refl _)).trans hgone
      exact ⟨_, hshows', .inr ⟨hover, steps, context, nowMs, faults, [], rfl, hgiven, hover, hnone, rfl⟩⟩

theorem Lasting.run (h : Lasting rules x d value first lapse steps) (hfirst : first.expiresAt = some lapse)
    {more : List Step} (haside : ∀ r, .aside r ∈ more → r.leaves (blockKey d value) = true) :
    Lasting rules x d value first lapse (steps ++ more) := by
  induction more generalizing steps with
  | nil => rwa [List.append_nil]
  | cons step rest ih =>
    rw [List.append_cons]
    refine ih (h.step hfirst ?_) fun r hr => haside r (List.mem_cons_of_mem _ hr)
    rintro r rfl
    exact haside r List.mem_cons_self

/-- Before the first marker is over it is what is seen, and what is seen from then on is a later one. -/
theorem Lasting.seen (h : Lasting rules x d value first lapse steps) (hfirst : first.expiresAt = some lapse) :
    let y := x.run rules steps
    (y.now.nanos < lapse.nanos → y.memory.visible? y.now (blockKey d value) = some first) ∧
      (lapse.nanos ≤ y.now.nanos → ∀ e, y.memory.visible? y.now (blockKey d value) = some e →
        Marks rules x d value lapse steps e) := by
  obtain ⟨e, hshows, horigin⟩ := h
  have hvisible := hshows _ (Nat.le_refl _)
  obtain ⟨text, _⟩ := first
  obtain rfl := hfirst
  refine ⟨fun hlt => ?_, fun hle e' hseen => ?_⟩
  · obtain rfl := horigin.resolve_right fun h => Nat.not_le_of_lt hlt h.1
    rw [hvisible, Cell.live_until, if_pos hlt]
  · rw [hvisible] at hseen
    obtain ⟨heq, _⟩ := Cell.live_eq_some hseen
    obtain rfl := Option.some.inj heq
    rcases horigin with rfl | ⟨_, hmarks⟩
    · rw [Cell.live_until, if_neg (Nat.not_lt_of_le hle)] at hseen
      cases hseen
    · exact hmarks

end Runs

/-- A request that carries the value is refused for it or in an earlier dimension. Whatever fails, the marker and the
counters of the value stay as they are. -/
structure Barred (rules : Rules) (x : Session) (context : Context) (nowMs : Int) (d : Dimension) (value : String) :
    Prop where
  spared : ∀ faults key, Record d value key → ∀ later : Instant, x.now.nanos ≤ later.nanos →
    (x.check rules context nowMs faults).2.visible? later key = x.memory.visible? later key
  refused : ∀ faults decision, (x.check rules context nowMs faults).1 = .ok (.ok decision) →
    ∃ before after, Dimension.all = before ++ d :: after ∧ ∃ d' ∈ before ++ [d], ∃ ms, decision = ⟨true, some d', ms⟩
  decided : rules.Fit x.now → rules.Countable x.memory x.now context nowMs Dimension.all →
    ∃ decision, (x.check rules context nowMs []).1 = .ok (.ok decision)

theorem Rules.Eligible.carried {rules : Rules} {context context' : Context} {d : Dimension} {value : String}
    (h : rules.Eligible context d value) (hgiven : context'.given d = some value) : rules.Eligible context' d value :=
  { h with given := hgiven }

theorem barred_of_marked {rules : Rules} {x : Session} {context : Context} {nowMs : Int} {d : Dimension} {value : String}
    (heligible : rules.Eligible context d value) (hlive : (x.memory.visible? x.now (blockKey d value)).isSome) :
    Barred rules x context nowMs d value := by
  obtain ⟨before, after, hsplit⟩ := List.append_of_mem (Dimension.mem_all d)
  have hnodup : (before ++ d :: after).Nodup := hsplit ▸ (by decide : Dimension.all.Nodup)
  have hall := ensures_barred x.turn nowMs hnodup heligible hlive
  rw [← hsplit] at hall
  refine ⟨fun faults key hrecord later hl => ?_, fun faults decision ho => ?_, fun hfits hcounts => ?_⟩
  · exact (hall faults).1 key _ hrecord (x.memory.shows_find? x.now key) later hl
  · exact ⟨before, after, hsplit, (hall faults).2 decision ho⟩
  · obtain ⟨m', decision, _, _, hplay, _⟩ :=
      play_checkDimensions (t := x.turn) hfits (by decide : Dimension.all.Nodup) hcounts
    exact ⟨decision, congrArg Prod.fst hplay⟩

/-- A check that comes to a decision crosses the threshold of a value. Up to the end of the block whoever carries the value
is refused, and the marker stays as it was written. From then on a marker of the value is one that a later check has written
when there was none. -/
theorem block_lasts_its_duration (rules : Rules) (x : Session) (context : Context) (nowMs : Int) (d : Dimension)
    (value : String) (hcross : rules.Crosses x.memory x.now context nowMs d value) (faults : Faults) (decision : Decision)
    (hdone : (x.check rules context nowMs faults).1 = .ok (.ok decision)) (steps : List Step)
    (haside : ∀ r, .aside r ∈ steps → r.leaves (blockKey d value) = true) :
    let crossed := x.step rules (.check context nowMs faults)
    let y := crossed.run rules steps
    let lapse := x.now.advance rules.blockDuration
    (y.now.nanos < lapse.nanos →
      y.memory.visible? y.now (blockKey d value) = some ⟨toString nowMs, some lapse⟩ ∧
        ∀ context' nowMs', context'.given d = some value → Barred rules y context' nowMs' d value) ∧
      (lapse.nanos ≤ y.now.nanos → ∀ e, y.memory.visible? y.now (blockKey d value) = some e →
        Marks rules crossed d value lapse steps e) := by
  intro crossed y lapse
  have hfirst : Lasting rules crossed d value (rules.marker x.now nowMs) lapse [] :=
    ⟨_, hcross.marks hdone, .inl rfl⟩
  obtain ⟨hbefore, hafter⟩ := (hfirst.run rfl haside).seen rfl
  refine ⟨fun hlt => ⟨hbefore hlt, fun context' nowMs' hgiven => ?_⟩, hafter⟩
  exact barred_of_marked (hcross.eligible.carried hgiven) (Option.isSome_of_eq_some (hbefore hlt))

/-- After the second visit, requests from the city up to the last second of the block. -/
def afterwards : List Step :=
  [.check visitor 61000 [], .aside (.delete "k"), .advance (.ofSeconds 299), .check { city := some "b" } 299000 []]

theorem crosses_visited : townRules.Crosses visited ⟨0⟩ visitor 0 .city "b" where
  eligible := ⟨rfl, by decide, by decide, by simp [townRules, Whitelist.values]⟩
  unmarked := by decide +kernel
  past := ⟨1, by decide +kernel, by decide⟩
  first := by
    intro before after hsplit d' hmem value' heligible
    have hgiven := heligible.given
    cases d' with
    | fingerprint => exact absurd heligible.limited (by decide)
    | ip =>
      obtain rfl : "a" = value' := Option.some.inj hgiven
      have hcount : visited.count? ⟨0⟩ (townRules.counter 0 .ip "a") = some 1 := by decide +kernel
      have hunmarked : (visited.visible? ⟨0⟩ (blockKey .ip "a")).isSome = false := by decide +kernel
      rintro (hmarked | ⟨n, hn, hlt⟩)
      · rw [hunmarked] at hmarked
        cases hmarked
      · obtain rfl := Option.some.inj (hcount.symm.trans hn)
        exact absurd hlt (by decide)
    | city =>
      have hnodup : (before ++ .city :: after).Nodup := hsplit ▸ (by decide : Dimension.all.Nodup)
      exact absurd rfl (List.nodup_append.1 hnodup |>.2.2 _ hmem _ List.mem_cons_self)
    | country =>
      obtain rfl : "xx" = value' := Option.some.inj hgiven
      exact absurd rfl (heligible.unlisted " XX " (by decide))

theorem city_is_blocked_for_299_seconds :
    let y := ((Session.mk visited ⟨0⟩).step townRules (.check visitor 0 [])).run townRules afterwards
    townRules.Crosses visited ⟨0⟩ visitor 0 .city "b" ∧
      ((Session.mk visited ⟨0⟩).check townRules visitor 0 []).1 = .ok (.ok (.blocked .city (.ofSeconds 300))) ∧
      (∀ r, .aside r ∈ afterwards → r.leaves (blockKey .city "b") = true) ∧ y.now = ⟨299000000000⟩ ∧
      y.memory.visible? y.now (blockKey .city "b") = some ⟨"0", some ⟨300000000000⟩⟩ ∧
      Barred townRules y { city := some "b" } 299999 .city "b" := by
  intro y
  have haside : ∀ r, .aside r ∈ afterwards → r.leaves (blockKey .city "b") = true := by
    intro r hr
    simp only [afterwards, List.mem_cons, List.not_mem_nil, reduceCtorEq, Step.aside.injEq, false_or, or_false] at hr
    subst hr
    decide
  have hdone : ((Session.mk visited ⟨0⟩).check townRules visitor 0 []).1 = .ok (.ok (.blocked .city (.ofSeconds 300))) := rfl
  obtain ⟨hseen, hbarred⟩ := (block_lasts_its_duration townRules ⟨visited, ⟨0⟩⟩ visitor 0 .city "b" crosses_visited [] _
    hdone afterwards haside).1 (by decide)
  exact ⟨crosses_visited, hdone, haside, rfl, hseen, hbarred _ _ rfl⟩

end Coordination.RateLimit
