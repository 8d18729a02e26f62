import Coordination.Http.Layer
import Coordination.Proofs.Pool.Requests
import Coordination.Proofs.RateLimit.Course

/-! # What a blocked client is told to wait

A decision that blocks is made on one last answer of the store: what is left of a marker, or that a marker was written. The
wait that it tells is that time in whole milliseconds, and a response tells the seconds that cover these. What is left over
of a millisecond is told by neither, so that both may end before the marker, by less than a millisecond.
-/
namespace Coordination.RateLimit
open Store (Cell Memory)

variable {ω : Type}

/-- A request to be counted, at a wall time of its own or at the one that it reads. -/
structure Visit where
  context : Context
  nowMs : Option Int

def Visit.action (rules : Rules) (visit : Visit) : Action ω Decision :=
  match visit.nowMs with
  | some nowMs => rules.checkAt visit.context nowMs
  | none => rules.check visit.context

def visits (rules : Rules) (aside : Store.Request → Bool) : Traffic Visit ω (Except Failure Decision) where
  program visit := (visit.action rules).run
  admits _ _ := true
  works _ := true
  aside := aside

theorem Visit.sends (rules : Rules) (visit : Visit) :
    (visit.action rules : Action ω Decision).run.Sends fun r => ∃ context, SentFor context r := by
  obtain ⟨context, nowMs | _⟩ := visit
  · exact (check_strict rules context).sends.mono fun r hr => ⟨context, hr⟩
  · exact (checkAt_strict rules context _).sends.mono fun r hr => ⟨context, hr⟩

/-- An answer on which a value is refused, and the decision: what is left of its marker, or that it has been marked. -/
inductive RefusedOn (rules : Rules) (d : Dimension) (value : String) : Answered ω → Decision → Prop
  | marked (left : Option Duration) : RefusedOn rules d value
    ⟨.store (.ttlRemaining (blockKey d value)), .ok left⟩ (.blocked d (left.getD rules.defaultRetryAfter))
  | crossed (nowMs : Int) : RefusedOn rules d value
    ⟨.store (markRequest rules d value nowMs), .ok ()⟩ (.blocked d rules.blockDuration)

/-- A decision that blocks was made on the last answer. -/
def MadeOn (rules : Rules) (context : Context) (last : Option (Answered ω)) (outcome : Except Failure Decision) : Prop :=
  ∀ decision, outcome = .ok decision → decision.isBlocked = true →
    ∃ answer d value, last = some answer ∧ context.given d = some value ∧ RefusedOn rules d value answer decision

section Answers
variable {rules : Rules} {context : Context} {d : Dimension} {value : String} {threshold : Nat} {nowMs : Int}
  {last : Option (Answered ω)}

theorem madeOn_failed (failure : Failure) : MadeOn rules context last (.error failure) := nofun

theorem madeOn_allowed : MadeOn rules context last (.ok .allowed) := by
  rintro _ ⟨⟩ hblocked
  cases hblocked

theorem madeOn_refused {answer : Answered ω} {decision : Decision} (hgiven : context.given d = some value)
    (h : RefusedOn rules d value answer decision) : MadeOn rules context (some answer) (.ok decision) := by
  rintro _ ⟨⟩ _
  exact ⟨answer, d, value, rfl, hgiven, h⟩

theorem checkDimension_endsOn (hgiven : context.given d = some value) {next : Program ω (Except Failure Decision)}
    (hnext : ∀ last, next.EndsOn (MadeOn rules context) last) :
    ((rules.checkDimension d value threshold nowMs).run.bind (afterDimension next)).EndsOn (MadeOn rules context) last := by
  refine Program.EndsOn.bind ?_
  rw [run_checkDimension]
  intro reply
  rcases reply with failure | _ | text
  · exact madeOn_failed failure
  · intro reply
    cases reply with
    | error failure => exact madeOn_failed failure
    | ok count =>
      rw [afterCount]
      split
      · exact hnext _
      · intro reply
        cases reply with
        | error failure => exact madeOn_failed failure
        | ok _ => exact madeOn_refused hgiven (.crossed nowMs)
  · intro reply
    cases reply with
    | error failure => exact madeOn_failed failure
    | ok left => exact madeOn_refused hgiven (.marked left)

theorem checkDimensions_endsOn (ds : List Dimension) (last : Option (Answered ω)) :
    (rules.checkDimensions context nowMs ds : Action ω Decision).run.EndsOn (MadeOn rules context) last := by
  induction ds generalizing last with
  | nil => exact madeOn_allowed
  | cons d rest ih =>
    rw [run_checkDimensions_cons]
    cases helig : rules.eligible? context d with
    | none => exact ih last
    | some counted =>
      obtain ⟨value, threshold⟩ := counted
      have hgiven := (Option.filter_eq_some_iff.1 (eligible?_eq_some.1 helig).1).1
      exact checkDimension_endsOn hgiven ih

theorem Visit.endsOn (rules : Rules) (visit : Visit) (last : Option (Answered ω)) :
    (visit.action rules : Action ω Decision).run.EndsOn (MadeOn rules visit.context) last := by
  obtain ⟨context, nowMs | _⟩ := visit
  · exact fun _ => checkDimensions_endsOn Dimension.all _
  · exact checkDimensions_endsOn Dimension.all last

end Answers

theorem visits_endOn {rules : Rules} {aside : Store.Request → Bool} {m : Memory} {start : Instant}
    (moves : List (Move Visit ω)) : ((Pool.opened m start).run (visits rules aside) moves).AllStand
      fun visit rest => ∃ last, rest.EndsOn (MadeOn rules visit.context) last := by
  refine Pool.run_induction (fun hp hchange => hchange.allStand hp ?_ ?_) (Pool.allStand_opened m start) moves
  · exact fun visit => ⟨none, visit.endsOn rules none⟩
  · rintro i visit q next status m' a _ _ ⟨last, hends⟩
    exact ⟨some ⟨q, a⟩, hends a⟩

/-- From `now` on every marker that is seen has a deadline. -/
def MarkersEnd (m : Memory) (now : Instant) : Prop :=
  ∀ d value, ∃ c : Cell, m.Shows now (blockKey d value) c ∧ ∀ e, c = some e → e.expiresAt.isSome

section Markers
variable {m : Memory} {now : Instant} {r : Store.Request}

theorem Sent.leaves_or_marks {d : Dimension} {value : String} (h : Sent d value r) (d' : Dimension) (value' : String) :
    r.leaves (blockKey d' value') = true ∨ ∃ text ttl, r = .set (blockKey d' value') text (some ttl) := by
  cases h with
  | look | wait => exact .inl (Store.Request.leaves_of_reads rfl)
  | count window ttl =>
    refine .inl (Store.Request.leaves_of_ne fun heq => ?_)
    exact blockKey_ne_counterKey d' d value' value window (Option.some.inj heq).symm
  | mark text ttl =>
    by_cases hkey : blockKey d value = blockKey d' value'
    · exact .inr ⟨text, ttl, hkey ▸ rfl⟩
    · exact .inl (Store.Request.leaves_of_ne fun heq => hkey (Option.some.inj heq))

theorem MarkersEnd.serve (h : MarkersEnd m now)
    (hr : ∀ d value, r.leaves (blockKey d value) = true ∨ ∃ text ttl, r = .set (blockKey d value) text (some ttl)) :
    MarkersEnd (m.serve now r).2 now := by
  intro d value
  obtain ⟨c, hshows, hends⟩ := h d value
  rcases hr d value with hleaves | ⟨text, ttl, rfl⟩
  · exact ⟨c, hshows.kept hleaves rfl, hends⟩
  · refine ⟨_, (Memory.serve_agrees hshows (r := .set (blockKey d value) text (some ttl)) rfl).shows, ?_⟩
    rcases c.serve_set now (blockKey d value) text ttl with ⟨deadline, _, hserve⟩ | ⟨_, hserve⟩
    · rw [hserve]
      rintro _ ⟨⟩
      rfl
    · rwa [hserve]

theorem markersEnd_run {rules : Rules} {aside : Store.Request → Bool}
    (haside : ∀ r, aside r = true → ∀ d value, r.leaves (blockKey d value) = true) {start : Instant}
    (h : MarkersEnd m start) (moves : List (Move Visit ω)) :
    let p := (Pool.opened m start).run (visits rules aside) moves
    MarkersEnd p.memory p.now := by
  refine Pool.run_keeps (P := fun r => ∃ context, SentFor context r) (Visit.sends rules) ?_ ?_ h moves
  · rintro m now r hends (⟨_, _, _, _, hsent⟩ | hr)
    · exact hends.serve hsent.leaves_or_marks
    · exact hends.serve fun d value => .inl (haside r hr d value)
  · intro m now later hends hle d value
    obtain ⟨c, hshows, hc⟩ := hends d value
    exact ⟨c, hshows.later hle, hc⟩

end Markers

def mostMillis : Nat := Nat.pow 2 64 - 1

/-- How a time that is left is told: in whole milliseconds and in the seconds that cover these, but at least one. The
milliseconds are no longer than what is left, and as long as they fit their word both are short by less than one. -/
structure Told (left : Duration) (ms : Nat) : Prop where
  positive : 0 < ms ↔ Duration.nanosPerMilli ≤ left.nanos
  within : (Duration.ofMillis ms).nanos ≤ left.nanos
  short : left.millis ≤ mostMillis → left.nanos < (Duration.ofMillis ms).nanos + Duration.nanosPerMilli
  covers : left.millis ≤ mostMillis → (left.nanos ≤ (Duration.ofMillis ms).nanos ↔ left.nanos % Duration.nanosPerMilli = 0)
  shortInSeconds : left.millis ≤ mostMillis →
    left.nanos < (Duration.ofSeconds (Http.retryAfterSeconds ms)).nanos + Duration.nanosPerMilli
  coversInSeconds : left.millis ≤ mostMillis → (left.nanos ≤ (Duration.ofSeconds (Http.retryAfterSeconds ms)).nanos ↔
    left.nanos ≤ Duration.nanosPerSecond ∨ left.subsecond = 0 ∨ Duration.nanosPerMilli ≤ left.subsecond)

theorem wordOfMillis_eq (d : Duration) : wordOfMillis d = min d.millis mostMillis := by
  have hhigh : (Bounds.unsigned 64).high = mostMillis := by decide
  rw [wordOfMillis, Bounds.capped, hhigh]
  by_cases hfits : (d.millis : Int) ≤ mostMillis
  · rw [if_pos hfits]
    omega
  · rw [if_neg hfits]
    omega

theorem told_wordOfMillis (left : Duration) : Told left (wordOfMillis left) := by
  have hword := wordOfMillis_eq left
  have hmillis : left.millis = left.nanos / 1000000 := rfl
  have hmost : 0 < mostMillis := by decide
  have hseconds : ∀ ms, (Http.retryAfterSeconds ms) = max 1 ((ms + 999) / 1000) := fun _ => rfl
  constructor
  · simp only [Duration.nanosPerMilli]
    omega
  · simp only [Duration.ofMillis, Duration.nanosPerMilli]
    omega
  · simp only [Duration.ofMillis, Duration.nanosPerMilli]
    omega
  · simp only [Duration.ofMillis, Duration.nanosPerMilli]
    omega
  · simp only [Duration.ofSeconds, Duration.nanosPerSecond, Duration.nanosPerMilli, hseconds]
    omega
  · simp only [Duration.ofSeconds, Duration.subsecond, Duration.nanosPerSecond, Duration.nanosPerMilli, hseconds]
    omega

theorem gone_after_iff {m : Memory} {now deadline : Instant} {key text : String}
    (h : m.Shows now key (some ⟨text, some deadline⟩)) (wait : Duration) :
    m.visible? (now.advance wait) key = none ↔ (deadline.timeLeft now).nanos ≤ wait.nanos := by
  rw [h (now.advance wait) (Nat.le_add_right ..), Cell.live_until]
  have hlasts : (now.advance wait).nanos < deadline.nanos ↔ wait.nanos < (deadline.timeLeft now).nanos := by
    simp only [Instant.advance, Instant.timeLeft]
    omega
  by_cases hlive : wait.nanos < (deadline.timeLeft now).nanos
  · rw [if_pos (hlasts.2 hlive)]
    exact ⟨fun h => absurd h (Option.some_ne_none _), fun hle => absurd hlive (Nat.not_lt.2 hle)⟩
  · rw [if_neg (fun h => hlive (hlasts.1 h))]
    exact ⟨fun _ => Nat.not_lt.1 hlive, fun _ => rfl⟩

/-- The wait of a decision that blocks: of the marker that is seen when it is made, or the one for want of a marker. -/
inductive Hinted (rules : Rules) (m : Memory) (now : Instant) (key : String) (ms : Nat) : Prop
  | lapsed (hgone : m.visible? now key = none) (hms : ms = wordOfMillis rules.defaultRetryAfter)
  | left {text : String} {deadline : Instant} (hseen : m.visible? now key = some ⟨text, some deadline⟩)
    (hover : ∀ wait, m.visible? (now.advance wait) key = none ↔ (deadline.timeLeft now).nanos ≤ wait.nanos)
    (htold : Told (deadline.timeLeft now) ms)

section Hints
variable {rules : Rules} {m m' : Memory} {now : Instant} {key : String}

theorem hinted_of_shows {text : String} {deadline : Instant} (h : m.Shows now key (some ⟨text, some deadline⟩))
    (hlive : now.nanos < deadline.nanos) : Hinted rules m now key (wordOfMillis (deadline.timeLeft now)) := by
  have hseen : m.visible? now key = some ⟨text, some deadline⟩ := by
    rw [h now (Nat.le_refl _), Cell.live_until, if_pos hlive]
  exact .left hseen (gone_after_iff h) (told_wordOfMillis _)

theorem hinted_of_left {c : Cell} (hshows : m.Shows now key c) (hends : ∀ e, c = some e → e.expiresAt.isSome)
    {left : Option Duration} (hserve : m.serve now (.ttlRemaining key) = (.ok (.ok left), m')) :
    Hinted rules m' now key (wordOfMillis (left.getD rules.defaultRetryAfter)) := by
  have hshows' := hshows.kept (Store.Request.leaves_of_reads rfl) hserve
  have houtcome := (Memory.serve_agrees hshows (r := .ttlRemaining key) rfl).outcome
  rw [hserve] at houtcome
  rcases c with _ | ⟨text, _ | deadline⟩
  · cases houtcome
    exact .lapsed (hshows' now (Nat.le_refl _)) rfl
  · cases hends _ rfl
  · rw [Cell.serve_ttlRemaining] at houtcome
    by_cases hlive : now.nanos < deadline.nanos
    · rw [if_pos hlive] at houtcome
      cases houtcome
      exact hinted_of_shows hshows' hlive
    · rw [if_neg hlive] at houtcome
      cases houtcome
      refine .lapsed ?_ rfl
      rw [hshows' now (Nat.le_refl _), Cell.live_until, if_neg hlive]

theorem hinted_of_mark {text : String} (hserve : m.serve now (.set key text (some rules.blockDuration)) = (.ok (.ok ()), m')) :
    Hinted rules m' now key (wordOfMillis rules.blockDuration) := by
  have hlong : rules.blockDuration.millis ≠ 0 := by
    intro hshort
    have hcheck : (Store.Request.set key text (some rules.blockDuration)).checkTtl =
        .error (.invalidArgument .ttlTooShort) := if_pos hshort
    rw [Memory.serve, hcheck] at hserve
    cases hserve
  obtain ⟨m'', _, ⟨hcrash, _⟩ | ⟨hset, _, hshows⟩⟩ := m.set_cases now key text hlong
  · cases hserve.symm.trans hcrash
  · cases hserve.symm.trans hset
    have hhinted : Hinted rules m' now key _ := hinted_of_shows hshows (now.lt_advance hlong)
    rwa [Instant.timeLeft_advance] at hhinted

end Hints

/-- A request is refused with a response that tells the seconds of the wait. -/
structure Refused (ω : Type) (rules : Rules) (context : Context) (decision : Decision) : Prop where
  status : (Http.tooManyRequests decision).status = 429
  header : (Http.tooManyRequests decision).headers.get? "retry-after" =
    some (toString (Http.retryAfterSeconds decision.retryAfterMs)).toUTF8
  response : ∀ (request : Http.Request) (next : Program ω Http.Response) (log : List (Answered ω)),
    request.context.getD {} = context → (rules.check context).run.Leads log (.done (.ok decision)) →
    (Http.limitRate rules request next).Leads log (.done (Http.tooManyRequests decision))

theorem refused_of_blocked (rules : Rules) (context : Context) {decision : Decision} (hblocked : decision.isBlocked = true) :
    Refused ω rules context decision where
  status := rfl
  header := Http.Headers.get?_insert ..
  response := by
    rintro request next log rfl hleads
    have hrefused : (Http.limitRate rules request next).Leads log
        (if decision.isBlocked then pure (Http.tooManyRequests decision) else next) := hleads.within _
    rwa [if_pos hblocked] at hrefused

/-- A decision of a visit that blocks tells what is left of the marker that is seen when it is made. It is told in whole
milliseconds, so that the wait may be over before the marker, by less than a millisecond, and nothing is told of a last part
that is shorter than one. -/
theorem blocked_visit_is_hinted (rules : Rules) (aside : Store.Request → Bool)
    (haside : ∀ r, aside r = true → ∀ d value, r.leaves (blockKey d value) = true) (m : Memory) (start : Instant)
    (hunmarked : ∀ d value, m.visible? start (blockKey d value) = none) (moves : List (Move Visit ω)) (move : Move Visit ω)
    (e : Coordination.Event Visit ω (Except Failure Decision)) (decision : Decision)
    (hresult : e.result = some (.ok decision)) (hblocked : decision.isBlocked = true) :
    let p := (Pool.opened m start).run (visits rules aside) moves
    let p' := p.step (visits rules aside) move
    p'.history = p.history ++ [e] →
      ∃ d value, e.op.context.given d = some value ∧ decision.blockedBy = some d ∧
        Hinted rules p'.memory e.time (blockKey d value) decision.retryAfterMs ∧
        Refused ω rules e.op.context decision := by
  intro p p' hnew
  obtain ⟨q, next, a, status, htask, hgranted, hnext, htime⟩ :=
    (Pool.step_change (visits rules aside) p move).answer_of_result hnew hresult
  obtain ⟨last, hends⟩ := visits_endOn moves _ _ htask
  have hlast := hends a
  rw [hnext] at hlast
  obtain ⟨answer, d, value, hanswer, hgiven, hrefused⟩ := hlast decision rfl hblocked
  obtain rfl := Option.some.inj hanswer
  have hmarkers : MarkersEnd p.memory p.now :=
    markersEnd_run haside (fun d value => ⟨none, Memory.shows_none (hunmarked d value), nofun⟩) moves
  obtain ⟨c, hshows, hc⟩ := hmarkers d value
  rw [htime]
  cases hrefused with
  | marked left => exact ⟨d, value, hgiven, rfl, hinted_of_left hshows hc hgranted.2, refused_of_blocked rules _ hblocked⟩
  | crossed nowMs => exact ⟨d, value, hgiven, rfl, hinted_of_mark hgranted.2, refused_of_blocked rules _ hblocked⟩

def briefRules : Rules := ⟨.ofSeconds 60, .ofSeconds 2, .ofSeconds 60, ⟨0, 1, 0, 0⟩, {}⟩

def thirdVisit (elapsed : Duration) : List (Move Visit Unit) :=
  let come : Move Visit Unit := .call ⟨{ ip := some "a" }, some 0⟩
  [come, .store 0, .store 0, come, .store 1, .store 1, .store 1, .advance elapsed, come, .store 2]

def thirdTold (elapsed left : Duration) (ms : Nat) : Coordination.Event Visit Unit (Except Failure Decision) where
  task := 2
  op := ⟨{ ip := some "a" }, some 0⟩
  time := ⟨elapsed.nanos⟩
  what := .answered (.store (.ttlRemaining (blockKey .ip "a"))) (.ok (some left))
  result := some (.ok ⟨true, some .ip, ms⟩)

abbrev thirdPool (elapsed : Duration) : Pool Visit Unit (Except Failure Decision) :=
  (Pool.opened .empty ⟨0⟩).run (visits briefRules fun _ => false) (thirdVisit elapsed)

abbrev thirdPool' (elapsed : Duration) : Pool Visit Unit (Except Failure Decision) :=
  (thirdPool elapsed).step (visits briefRules fun _ => false) (.store 2)

theorem history_second_told : (thirdPool' ⟨999500000⟩).history =
    (thirdPool ⟨999500000⟩).history ++ [thirdTold ⟨999500000⟩ ⟨1000500000⟩ 1000] := rfl

theorem history_nothing_told : (thirdPool' ⟨1999500000⟩).history =
    (thirdPool ⟨1999500000⟩).history ++ [thirdTold ⟨1999500000⟩ ⟨500000⟩ 0] := rfl

theorem second_told_of_marker :
    (∀ r : Store.Request, (fun _ => false) r = true → ∀ d value, r.leaves (blockKey d value) = true) ∧
      (∀ d value, Memory.empty.visible? ⟨0⟩ (blockKey d value) = none) ∧
      (thirdTold ⟨999500000⟩ ⟨1000500000⟩ 1000).result = some (.ok ⟨true, some .ip, 1000⟩) ∧
      Hinted briefRules (thirdPool' ⟨999500000⟩).memory ⟨999500000⟩ (blockKey .ip "a") 1000 := by
  refine ⟨nofun, fun _ _ => rfl, rfl, ?_⟩
  obtain ⟨d, value, hgiven, hby, hhinted, _⟩ := blocked_visit_is_hinted briefRules (fun _ => false) nofun .empty ⟨0⟩
    (fun _ _ => rfl) (thirdVisit ⟨999500000⟩) (.store 2) _ ⟨true, some .ip, 1000⟩ rfl rfl history_second_told
  obtain rfl := Option.some.inj hby
  obtain rfl := Option.some.inj hgiven
  exact hhinted

/-- What holds of all decisions that block, and of the memory right after them. -/
def OfBlocks (hint : Memory → Coordination.Event Visit Unit (Except Failure Decision) → Decision → Prop) : Prop :=
  ∀ (rules : Rules) (moves : List (Move Visit Unit)) (move : Move Visit Unit)
    (e : Coordination.Event Visit Unit (Except Failure Decision)) (decision : Decision),
    Duration.nanosPerMilli ≤ rules.blockDuration.nanos → e.result = some (.ok decision) → decision.isBlocked = true →
    let p := (Pool.opened .empty ⟨0⟩).run (visits rules fun _ => false) moves
    let p' := p.step (visits rules fun _ => false) move
    p'.history = p.history ++ [e] → hint p'.memory e decision

/-- The marker for which a visit was blocked is gone after a wait. -/
def GoneAfter (wait : Decision → Duration) (m : Memory) (e : Coordination.Event Visit Unit (Except Failure Decision))
    (decision : Decision) : Prop :=
  ∀ d value, decision.blockedBy = some d → e.op.context.given d = some value →
    m.visible? (e.time.advance (wait decision)) (blockKey d value) = none

/-- A visit may be told to wait for nothing, and both what the decision and what the response tells may be over before the
marker. -/
theorem hint_may_end_early : ¬ OfBlocks (fun _ _ decision => 0 < decision.retryAfterMs) ∧
    ¬ OfBlocks (GoneAfter fun decision => .ofMillis decision.retryAfterMs) ∧
    ¬ OfBlocks (GoneAfter fun decision => .ofSeconds (Http.retryAfterSeconds decision.retryAfterMs)) := by
  have hstays : (thirdPool' ⟨999500000⟩).memory.visible? ⟨1999500000⟩ (blockKey .ip "a") =
      some ⟨"0", some ⟨2000000000⟩⟩ := by decide +kernel
  refine ⟨fun h => ?_, fun h => ?_, fun h => ?_⟩
  · exact absurd (h briefRules _ _ _ _ (by decide) rfl rfl history_nothing_told) (by decide)
  · have hgone := h briefRules _ _ _ _ (by decide) rfl rfl history_second_told .ip "a" rfl rfl
    exact absurd (hstays.symm.trans hgone) nofun
  · have hgone := h briefRules _ _ _ _ (by decide) rfl rfl history_second_told .ip "a" rfl rfl
    exact absurd (hstays.symm.trans hgone) nofun

end Coordination.RateLimit
