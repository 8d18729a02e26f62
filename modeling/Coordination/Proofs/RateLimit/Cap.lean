import Coordination.Proofs.RateLimit.Course
import Coordination.Proofs.Turn.Play

/-! # The cap of a window

Requests come one after the other, each at its time, and any of their calls to the store may fail without having taken
effect. The counter of a value and a window outlives the window, for its time begins with the first request that is
counted there. So each request of the window that is allowed has found a count of its own within the threshold, whatever
became of the markers meanwhile.
-/
namespace Coordination.RateLimit
open Store (Crash Memory countRequest)

/-- When a request comes, what it carries and which of its calls to the store fail. -/
structure Arrival where
  time : Instant
  context : Context
  faults : Faults

/-- The milliseconds of the wall clock, for a store's clock that began `epoch` nanoseconds after the epoch. -/
def wallMs (epoch : Int) (t : Instant) : Int := (epoch + t.nanos) / 1000000

abbrev Outcome := Except Crash (Except Failure Decision)

def isAllowed : Outcome → Bool
  | .ok (.ok decision) => !decision.isBlocked
  | _ => false

def Arrival.turn (epoch : Int) (a : Arrival) : Turn := ⟨a.time, "", wallMs epoch a.time⟩

def decideAll (rules : Rules) (epoch : Int) (m : Memory) : List Arrival → List (Arrival × Outcome)
  | [] => []
  | a :: rest =>
    let played := (a.turn epoch).play (rules.checkAt a.context (wallMs epoch a.time)).run m a.faults
    (a, played.1) :: decideAll rules epoch played.2.1 rest

/-- A request that carries the value in the dimension, falls in the window and was allowed. -/
def Rules.admitted (rules : Rules) (epoch : Int) (d : Dimension) (value : String) (window : Int)
    (x : Arrival × Outcome) : Bool :=
  x.1.context.value d = some value && rules.windowAt (wallMs epoch x.1.time) = window && isAllowed x.2

section Windows
variable {rules : Rules} {epoch window : Int} {t : Instant}

def windowMs (rules : Rules) : Int := max 1 ((Bounds.signed 64).capped rules.window.millis)

theorem windowMs_pos (rules : Rules) : 0 < windowMs rules := by
  unfold windowMs
  omega

theorem windowMs_le (h : rules.window.millis ≠ 0) : windowMs rules * 1000000 ≤ rules.window.nanos := by
  have hcapped : (Bounds.signed 64).capped rules.window.millis ≤ rules.window.millis := by
    unfold Bounds.capped
    split <;> omega
  have hmillis : rules.window.millis * 1000000 ≤ rules.window.nanos := Nat.div_mul_le_self ..
  unfold windowMs
  omega

/-- The end of a window by the store's clock. -/
def windowEnd (rules : Rules) (epoch window : Int) : Int := (window + 1) * windowMs rules * 1000000 - epoch

theorem lt_windowEnd (h : rules.windowAt (wallMs epoch t) = window) : t.nanos < windowEnd rules epoch window := by
  have hms : wallMs epoch t < (window + 1) * windowMs rules := by
    rw [← h]
    exact Int.lt_ediv_add_one_mul_self _ (windowMs_pos rules)
  have hnanos : epoch + t.nanos < (wallMs epoch t + 1) * 1000000 := Int.lt_ediv_add_one_mul_self _ (by decide)
  unfold windowEnd
  omega

theorem windowEnd_le (h : rules.windowAt (wallMs epoch t) = window) (hlong : rules.window.millis ≠ 0) :
    windowEnd rules epoch window ≤ t.nanos + rules.window.nanos := by
  have hms : window * windowMs rules ≤ wallMs epoch t := by
    rw [← h]
    exact Int.ediv_mul_le _ (Int.ne_of_gt (windowMs_pos rules))
  have hnanos : wallMs epoch t * 1000000 ≤ epoch + t.nanos := Int.ediv_mul_le _ (by decide)
  have hlength := windowMs_le hlong
  have hend : (window + 1) * windowMs rules = window * windowMs rules + windowMs rules := by
    rw [Int.add_mul, Int.one_mul]
  unfold windowEnd
  omega

end Windows

section Request
variable {rules : Rules} {t : Turn} {m : Memory} {d : Dimension} {value key : String} {threshold : Nat} {nowMs : Int}
  {context : Context} {n : Nat} {horizon : Int}

/-- The counter has not gone back, and it has gone on within the threshold if the request passed. -/
def Tallied (now : Instant) (key : String) (n : Nat) (horizon : Int) (threshold : Nat) (passed : Prop) (m : Memory) :
    Prop :=
  ∃ n', m.Counts now key n' horizon ∧ n ≤ n' ∧ (passed → n < n' ∧ n' ≤ threshold)

theorem tallied_of_not {passed : Prop} (h : m.Counts t.now key n horizon) (hnot : ¬ passed) :
    Tallied t.now key n horizon threshold passed m :=
  ⟨n, h, Nat.le_refl n, fun hpassed => absurd hpassed hnot⟩

theorem Tallied.of_succ {passed : Prop} (h : m.Counts t.now key (n + 1) horizon) (hle : passed → n + 1 ≤ threshold) :
    Tallied t.now key n horizon threshold passed m :=
  ⟨n + 1, h, Nat.le_succ n, fun hpassed => ⟨Nat.lt_succ_self n, hle hpassed⟩⟩

theorem ensures_afterCount {window : Int} (hkey : key = counterKey d value window)
    (h : m.Counts t.now key (n + 1) horizon) :
    t.Ensures (afterCount rules d value threshold nowMs (.ok ((n + 1 : Nat) : Int))) m fun outcome =>
      Tallied t.now key n horizon threshold (outcome = .ok (.ok none)) := by
  have hleaves : (markRequest rules d value nowMs).leaves key = true := hkey ▸ mark_leaves ..
  rw [afterCount]
  split
  · next hle => exact Turn.ensures_done (.of_succ h fun _ => hle)
  · refine Turn.ensures_store (fun failure => Turn.ensures_done (.of_succ h (by simp))) ?_ ?_
    · intro reply m' hserve
      have h' := h.kept hleaves hserve
      cases reply with
      | error failure => exact Turn.ensures_done (.of_succ h' (by simp))
      | ok _ => exact Turn.ensures_done (.of_succ h' (by simp))
    · intro c m' hserve
      exact .of_succ (h.kept hleaves hserve) (by simp)

section Counting
variable (hkey : key = counterKey d value (rules.windowAt nowMs)) (hnow : t.now.nanos < horizon)
  (hlater : rules.window.millis ≠ 0 → horizon ≤ t.now.nanos + rules.window.nanos)
include hkey hnow hlater

theorem ensures_counting (h : m.Counts t.now key n horizon) :
    t.Ensures (.ask (.store (countRequest key rules.window)) (afterCount rules d value threshold nowMs)) m fun outcome =>
      Tallied t.now key n horizon threshold (outcome = .ok (.ok none)) := by
  refine Turn.ensures_store (fun failure => Turn.ensures_done (tallied_of_not h (by simp))) ?_ ?_
  · intro reply m' hserve
    have hcounts := h.serve hnow hlater
    rw [hserve] at hcounts
    rcases hcounts with ⟨hreply, h'⟩ | ⟨hreply, h'⟩
    · rw [Except.ok.inj hreply]
      exact ensures_afterCount hkey h'
    · cases reply with
      | error failure => exact Turn.ensures_done (tallied_of_not h' (by simp))
      | ok count => exact absurd rfl (hreply.ne_ok count)
  · intro c m' hserve
    have hcounts := h.serve hnow hlater
    rw [hserve] at hcounts
    rcases hcounts with ⟨hreply, _⟩ | ⟨_, h'⟩
    · cases hreply
    · exact tallied_of_not h' (by simp)

/-- A request that passes the dimension has added one to its counter, up to the threshold at most. -/
theorem ensures_counted (h : m.Counts t.now key n horizon) :
    t.Ensures (rules.checkDimension d value threshold nowMs).run m fun outcome =>
      Tallied t.now key n horizon threshold (outcome = .ok (.ok none)) := by
  rw [run_checkDimension]
  refine Turn.ensures_store (fun failure => Turn.ensures_done (tallied_of_not h (by simp))) ?_ ?_
  · intro reply m₁ hserve
    have h₁ := h.kept (Store.Request.leaves_of_reads rfl) hserve
    rcases reply with failure | _ | text
    · exact Turn.ensures_done (tallied_of_not h₁ (by simp))
    · rw [afterMarker, ← hkey]
      exact ensures_counting hkey hnow hlater h₁
    · refine Turn.ensures_store (fun failure => Turn.ensures_done (tallied_of_not h₁ (by simp))) ?_ ?_
      · intro reply m₂ hserve
        have h₂ := h₁.kept (Store.Request.leaves_of_reads rfl) hserve
        cases reply with
        | error failure => exact Turn.ensures_done (tallied_of_not h₂ (by simp))
        | ok left => exact Turn.ensures_done (tallied_of_not h₂ (by simp))
      · intro c m₂ hserve
        exact tallied_of_not (h₁.kept (Store.Request.leaves_of_reads rfl) hserve) (by simp)
  · intro c m₁ hserve
    exact tallied_of_not (h.kept (Store.Request.leaves_of_reads rfl) hserve) (by simp)

end Counting

theorem ensures_counts {p : Program Unit (Except Failure Decision)} (hp : p.Avoids key)
    (h : m.Counts t.now key n horizon) : t.Ensures p m fun _ m' => m'.Counts t.now key n horizon := by
  obtain ⟨c, hc, hn⟩ := h
  exact (Turn.ensures_shows hp hc).mono fun _ _ hc' => ⟨c, hc', hn⟩

/-- A request that is counted in the dimension and allowed has added one to its counter, up to the threshold at most. -/
theorem ensures_allowed_counted (hkey : key = counterKey d value (rules.windowAt nowMs)) (hnow : t.now.nanos < horizon)
    (hlater : rules.window.millis ≠ 0 → horizon ≤ t.now.nanos + rules.window.nanos)
    (helig : rules.eligible? context d = some (value, threshold)) {ds : List Dimension} (hmem : d ∈ ds)
    (hnodup : ds.Nodup) (h : m.Counts t.now key n horizon) :
    t.Ensures (rules.checkDimensions context nowMs ds).run m fun outcome =>
      Tallied t.now key n horizon threshold (isAllowed outcome = true) := by
  -- Over the dimensions: only the check of `d` counts under `key`, and without repetitions it comes once.
  induction ds generalizing m with
  | nil => cases hmem
  | cons d' rest ih =>
    obtain ⟨hd', hnodup⟩ := List.nodup_cons.1 hnodup
    rw [run_checkDimensions_cons]
    by_cases hd : d' = d
    · subst hd
      rw [helig]
      refine ((ensures_counted hkey hnow hlater h).and ensures_blocks).bind ?_ ?_
      · rintro outcome m₁ ⟨⟨n', h₁, hle, hpassed⟩, hblocks⟩
        rcases outcome with failure | _ | decision
        · exact Turn.ensures_done ⟨n', h₁, hle, by simp [isAllowed]⟩
        · have havoids : (rules.checkDimensions context nowMs rest : Action Unit Decision).run.Avoids key := by
            refine checkDimensions_avoids fun d'' hd'' value'' _ => hkey ▸ ⟨(blockKey_ne_counterKey _ _ _ _ _).symm, fun heq => ?_⟩
            exact hd' ((counterKey_inj heq).1 ▸ hd'')
          exact (ensures_counts havoids h₁).mono fun _ m' h' => ⟨n', h', hle, fun _ => hpassed rfl⟩
        · obtain ⟨ms, rfl⟩ := hblocks decision rfl
          exact Turn.ensures_done ⟨n', h₁, hle, by simp [isAllowed]⟩
      · rintro c m₁ ⟨⟨n', h₁, hle, _⟩, _⟩
        exact ⟨n', h₁, hle, by simp [isAllowed]⟩
    · have hmem : d ∈ rest := (List.mem_cons.1 hmem).resolve_left fun heq => hd heq.symm
      cases helig' : rules.eligible? context d' with
      | none => exact ih hmem hnodup h
      | some counted =>
        obtain ⟨value', threshold'⟩ := counted
        have havoids : (rules.checkDimension d' value' threshold' nowMs : Action Unit (Option Decision)).run.Avoids key := by
          subst hkey
          exact checkDimension_avoids (blockKey_ne_counterKey _ _ _ _ _).symm fun heq => hd (counterKey_inj heq).1.symm
        obtain ⟨c, hc, hn⟩ := h
        refine ((Turn.ensures_shows havoids hc).and ensures_blocks).bind ?_ ?_
        · rintro outcome m₁ ⟨hc₁, hblocks⟩
          have h₁ : m₁.Counts t.now key n horizon := ⟨c, hc₁, hn⟩
          rcases outcome with failure | _ | decision
          · exact Turn.ensures_done (tallied_of_not h₁ (by simp [isAllowed]))
          · exact ih hmem hnodup h₁
          · obtain ⟨ms, rfl⟩ := hblocks decision rfl
            exact Turn.ensures_done (tallied_of_not h₁ (by simp [isAllowed]))
        · rintro crash m₁ ⟨hc₁, _⟩
          exact tallied_of_not ⟨c, hc₁, hn⟩ (by simp [isAllowed])

end Request

section Runs
variable {rules : Rules} {epoch window : Int} {d : Dimension} {value : String} {threshold : Nat}

theorem tallied_step {m : Memory} {n : Nat} (hthreshold : rules.thresholds.get? d = some threshold)
    (hlisted : rules.whitelist.contains d value = false) (a : Arrival)
    (h : m.Counts a.time (counterKey d value window) n (windowEnd rules epoch window)) :
    (a.turn epoch).Ensures (rules.checkAt a.context (wallMs epoch a.time)).run m fun outcome =>
      Tallied a.time (counterKey d value window) n (windowEnd rules epoch window) threshold
        (rules.admitted epoch d value window (a, outcome) = true) := by
  by_cases hhere : a.context.value d = some value ∧ rules.windowAt (wallMs epoch a.time) = window
  · obtain ⟨hvalue, hwindow⟩ := hhere
    have helig := eligible?_eq_some.2 ⟨hvalue, hthreshold, hlisted⟩
    have hkey : counterKey d value window = counterKey d value (rules.windowAt (wallMs epoch a.time)) := by rw [hwindow]
    have hallowed := ensures_allowed_counted (t := a.turn epoch) hkey (lt_windowEnd hwindow) (windowEnd_le hwindow) helig
      (Dimension.mem_all d) (by decide) h
    refine hallowed.mono ?_
    rintro outcome m' ⟨n', h', hle, hpassed⟩
    refine ⟨n', h', hle, fun hadmitted => hpassed ?_⟩
    simp only [Rules.admitted, Bool.and_eq_true] at hadmitted
    exact hadmitted.2
  · have havoids : (rules.checkAt a.context (wallMs epoch a.time) : Action Unit Decision).run.Avoids
        (counterKey d value window) := by
      refine checkDimensions_avoids fun d' _ value' hvalue => ⟨(blockKey_ne_counterKey _ _ _ _ _).symm, fun heq => ?_⟩
      obtain ⟨rfl, rfl, rfl⟩ := counterKey_inj heq
      exact hhere ⟨hvalue, rfl⟩
    refine (ensures_counts havoids h).mono ?_
    intro outcome m' h'
    refine ⟨n, h', Nat.le_refl n, ?_⟩
    intro hadmitted
    simp only [Rules.admitted, Bool.and_eq_true, decide_eq_true_eq] at hadmitted
    exact absurd hadmitted.1 hhere

theorem countP_admitted_le {m : Memory} {now : Instant} {n : Nat} {arrivals : List Arrival}
    (hthreshold : rules.thresholds.get? d = some threshold) (hlisted : rules.whitelist.contains d value = false)
    (hfrom : ∀ a ∈ arrivals, now.nanos ≤ a.time.nanos)
    (hsorted : arrivals.Pairwise fun a b => a.time.nanos ≤ b.time.nanos)
    (h : m.Counts now (counterKey d value window) n (windowEnd rules epoch window)) :
    (decideAll rules epoch m arrivals).countP (rules.admitted epoch d value window) ≤ threshold - n := by
  induction arrivals generalizing m now n with
  | nil => exact Nat.zero_le _
  | cons a rest ih =>
    obtain ⟨hle, hafter⟩ := List.pairwise_cons.1 hsorted
    have hnow := h.later (hfrom a List.mem_cons_self)
    obtain ⟨n', h', hn, hadmitted⟩ := tallied_step hthreshold hlisted a hnow a.faults
    have hrest := ih hle hafter h'
    rw [decideAll, List.countP_cons]
    split
    · next hhead =>
      have := hadmitted hhead
      omega
    · omega

/-- However many requests come and whatever fails, no more of those that carry a value and fall in a window are allowed
than the threshold of the dimension says. -/
theorem allowed_at_most_threshold (rules : Rules) (epoch : Int) (arrivals : List Arrival)
    (hsorted : arrivals.Pairwise fun a b => a.time.nanos ≤ b.time.nanos) (d : Dimension) (threshold : Nat)
    (hthreshold : rules.thresholds.get? d = some threshold) (value : String)
    (hlisted : rules.whitelist.contains d value = false) (window : Int) :
    (decideAll rules epoch .empty arrivals).countP (rules.admitted epoch d value window) ≤ threshold := by
  have hempty : Memory.empty.Counts ⟨0⟩ (counterKey d value window) 0 (windowEnd rules epoch window) :=
    ⟨none, Memory.shows_none rfl, Store.Cell.counts_none _⟩
  exact countP_admitted_le hthreshold hlisted (fun _ _ => Nat.zero_le _) hsorted hempty

def strictRules : Rules := ⟨.ofMillis 4, .ofMillis 1, .ofMillis 1, ⟨0, 2, 0, 0⟩, {}⟩

/-- Requests in one window and one in the next. One marker cannot be written and another is over soon. -/
def burst : List Arrival :=
  let from? (ms : Nat) (faults : Faults) : Arrival := ⟨⟨ms * 1000000⟩, { ip := some "a" }, faults⟩
  [from? 0 [], from? 0 [], from? 1 [none, none, some (.unavailable (.reported ""))], from? 1 [], from? 3 [], from? 4 []]

theorem burst_capped :
    (burst.Pairwise fun a b => a.time.nanos ≤ b.time.nanos) ∧ strictRules.thresholds.get? .ip = some 2 ∧
      strictRules.whitelist.contains .ip "a" = false ∧
      (decideAll strictRules 0 .empty burst).countP (strictRules.admitted 0 .ip "a" 0) = 2 ∧
      (decideAll strictRules 0 .empty burst).countP (strictRules.admitted 0 .ip "a" 0) ≤ 2 := by
  have hsorted : burst.Pairwise fun a b => a.time.nanos ≤ b.time.nanos := by decide
  have hcount : (decideAll strictRules 0 .empty burst).countP (strictRules.admitted 0 .ip "a" 0) = 2 := by decide +kernel
  exact ⟨hsorted, rfl, rfl, hcount, allowed_at_most_threshold strictRules 0 burst hsorted .ip 2 rfl "a" rfl 0⟩

end Runs

end Coordination.RateLimit
