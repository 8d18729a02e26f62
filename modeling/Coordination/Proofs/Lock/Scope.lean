import Coordination.Proofs.Lock.Course
import Coordination.Proofs.Rehearsal.Sparing

/-! # Work under a lock

Whatever the work does, it begins with the lock taken, and the lock is given back after it. Meanwhile the time of the owner may
run out and others may take the lock, so giving it back removes the owner's token and nothing else. Work on the same resource
that begins within the work finds the lock taken and is not run.
-/
namespace Coordination.Lock
open Rehearsal
open Store (Cell Entry Memory Request)

/-- Plays work under the lock on a resource. -/
def exclusively {ω : Type} (resource : String) (ttl : Duration) (work : Play ω) : Play (Except Failure (Option ω)) :=
  (runExclusive resource ttl (.once .work) : Action ω (Option ω)).run.interpret (answerWith work)

/-- Time has not passed, and the store answers as before. -/
structure SameConditions (s s' : Stage) : Prop where
  now : s'.now = s.now
  outage : s'.outage = s.outage
  scripts : s'.scripts = s.scripts

theorem SameConditions.reaches {s s' : Stage} (h : SameConditions s s') {op : Store.Operation} (hs : s.Reaches op) :
    s'.Reaches op :=
  ⟨h.outage.trans hs.1, h.scripts ▸ hs.2⟩

/-- Nothing has changed that can be seen in the store. -/
structure Alike (s s' : Stage) : Prop where
  conditions : SameConditions s s'
  seen : ∀ key, ∀ later : Instant, s.now.nanos ≤ later.nanos → s'.memory.visible? later key = s.memory.visible? later key

/-- The stage with the lock on a resource taken under the next token. -/
structure Taken (resource : String) (ttl : Duration) (s taken : Stage) : Prop where
  conditions : SameConditions s taken
  frame : s.memory.SameBut taken.memory s.now (key resource)
  shows : taken.memory.Shows s.now (key resource) (some ⟨tokenOf s.tokens, some (s.now.advance ttl)⟩)

/-- Work under the lock on a resource is not run, whatever it is, and nothing changes that can be seen. -/
def Refused (resource : String) (ttl : Duration) (s : Stage) : Prop :=
  ∃ after, Alike s after ∧
    ∀ {ω : Type} (work : Play ω), (exclusively resource ttl work).run.run s = (.ok (.ok none), after)

/-- What giving back the lock at a key makes of what the work has left. The memory is asked for that unless the store is out of
reach or the reply is scripted. -/
structure GivenBack (key token : String) (left final : Stage) : Prop where
  now : final.now = left.now
  frame : left.memory.SameBut final.memory left.now key
  released : left.Reaches .compareAndDelete → (final.memory.visible? left.now key).map Entry.value ≠ some token
  removed : left.Reaches .compareAndDelete → (left.memory.visible? left.now key).map Entry.value = some token →
    final.memory.Shows left.now key none
  spared : (left.memory.visible? left.now key).map Entry.value ≠ some token →
    ∀ c, left.memory.Shows left.now key c → final.memory.Shows left.now key c
  missed : ¬ left.Reaches .compareAndDelete → final.memory = left.memory

theorem isEmpty_tokenOf (n : Nat) : (tokenOf n).isEmpty = false := by
  rw [String.isEmpty_eq_false_iff]
  intro h
  have htoken : tokenOf n = "5ea1ed00-ca57-4a11-b0a7-" ++ hexPadded 12 n := rfl
  rw [htoken, String.append_eq_empty_iff] at h
  exact absurd h.1 (by decide)

theorem checkArguments_tokenOf {ttl : Duration} (hlong : ttl.millis ≠ 0) (n : Nat) :
    checkArguments (tokenOf n) ttl = .ok () := by
  have hzero : ttl.isZero = false := by
    rw [Duration.isZero, beq_eq_false_iff_ne]
    intro h
    rw [Duration.millis, h, Nat.zero_div] at hlong
    exact hlong rfl
  simp only [checkArguments, hzero, isEmpty_tokenOf, Bool.false_eq_true, if_false]

section Requests
variable {s : Stage} {r : Request} {outcome : Except Failure r.Reply}

theorem run_request {s' : Stage} (h : (serve r).run.run s = (.ok outcome, s')) : ∃ s'',
    (request r).run.run s = (.ok outcome, s'') ∧ s''.memory = s'.memory ∧ SameConditions s' s'' := by
  unfold request
  rw [Turn.run_bind, h]
  exact ⟨_, rfl, rfl, rfl, rfl, rfl⟩

theorem request_served {m' : Memory} (h : s.Reaches r.operation) (hserve : s.memory.serve s.now r = (.ok outcome, m')) :
    ∃ s', (request r).run.run s = (.ok outcome, s') ∧ s'.memory = m' ∧ SameConditions s s' := by
  have hrun : (serve r).run.run s = (.ok outcome, { s with memory := m' }) := by
    simp only [run_serve, h.1, h.2, hserve]
  obtain ⟨s', hs', hmemory, hsame⟩ := run_request hrun
  exact ⟨s', hs', hmemory, hsame.1, hsame.2, hsame.3⟩

theorem request_missed (h : ¬ s.Reaches r.operation) :
    ∃ outcome s', (request r).run.run s = (.ok outcome, s') ∧ s'.memory = s.memory ∧ s'.now = s.now := by
  have hrun : ∃ outcome s', (serve r).run.run s = (.ok outcome, s') ∧ s'.memory = s.memory ∧ s'.now = s.now := by
    rw [run_serve]
    split
    · exact ⟨_, _, rfl, rfl, rfl⟩
    · next houtage =>
      split
      · exact ⟨_, _, rfl, rfl, rfl⟩
      · next hreply => exact absurd ⟨houtage, hreply⟩ h
  obtain ⟨outcome, s', hs', hmemory, hnow⟩ := hrun
  obtain ⟨s'', hs'', hmemory', hsame⟩ := run_request hs'
  exact ⟨outcome, s'', hs'', hmemory'.trans hmemory, hsame.now.trans hnow⟩

theorem request_compareAndDelete (key token : String) (left : Stage) : ∃ outcome final,
    (request (.compareAndDelete key token)).run.run left = (.ok outcome, final) ∧ GivenBack key token left final := by
  by_cases hreaches : left.Reaches .compareAndDelete
  · obtain ⟨m', hframe, ⟨hserve, hseen, hgone⟩ | ⟨hserve, hseen, hsame⟩⟩ :=
      left.memory.compareAndDelete_cases left.now key token
    · obtain ⟨final, hfinal, rfl, hconditions⟩ := request_served (r := .compareAndDelete key token) hreaches hserve
      have hnone : (final.memory.visible? left.now key).map Entry.value ≠ some token := by
        rw [hgone left.now (Nat.le_refl _)]
        nofun
      exact ⟨_, final, hfinal, {
        now := hconditions.now
        frame := hframe
        released := fun _ => hnone
        removed := fun _ _ => hgone
        spared := fun hne => absurd hseen hne
        missed := fun hmiss => absurd hreaches hmiss }⟩
    · obtain ⟨final, hfinal, rfl, hconditions⟩ := request_served (r := .compareAndDelete key token) hreaches hserve
      have hother : (final.memory.visible? left.now key).map Entry.value ≠ some token := by
        rwa [hsame _ (left.memory.shows_find? left.now key) left.now (Nat.le_refl _)]
      exact ⟨_, final, hfinal, {
        now := hconditions.now
        frame := hframe
        released := fun _ => hother
        removed := fun _ heq => absurd heq hseen
        spared := fun _ => hsame
        missed := fun hmiss => absurd hreaches hmiss }⟩
  · obtain ⟨outcome, final, hfinal, hmemory, hnow⟩ := request_missed (r := .compareAndDelete key token) hreaches
    exact ⟨outcome, final, hfinal, {
      now := hnow
      frame := hmemory ▸ left.memory.sameBut_refl left.now key
      released := fun h => absurd h hreaches
      removed := fun h => absurd h hreaches
      spared := fun _ _ hc => hmemory ▸ hc
      missed := fun _ => hmemory }⟩

end Requests

section Take
variable {resource : String} {ttl : Duration} {ω : Type}

theorem run_exclusively (hlong : ttl.millis ≠ 0) (work : Play ω) (s : Stage) :
    (exclusively resource ttl work).run.run s =
      (request (.setIfAbsent (key resource) (tokenOf s.tokens) ttl) >>= fun reply =>
        (afterTake (key resource) (tokenOf s.tokens) (.once .work) reply).interpret (answerWith work)).run.run
          { s with tokens := s.tokens + 1 } := by
  have hdrawn : (answerWith work .token).run.run s = (.ok (tokenOf s.tokens), { s with tokens := s.tokens + 1 }) := rfl
  unfold exclusively
  rw [run_runExclusive, Program.interpret, Turn.run_bind, hdrawn]
  dsimp only
  rw [checkArguments_tokenOf hlong]
  rfl

theorem run_taking (hlong : ttl.millis ≠ 0) {s : Stage} (hreaches : s.Reaches .setIfAbsent) {free : Bool} {c : Cell}
    (hcell : Cell.serve (s.memory.entries.find? (key resource)) s.now
      (.setIfAbsent (key resource) (tokenOf s.tokens) ttl) = (.ok (.ok free), c)) :
    ∃ after, SameConditions s after ∧ s.memory.SameBut after.memory s.now (key resource) ∧
      after.memory.Shows s.now (key resource) c ∧ ∀ {ω : Type} (work : Play ω), (exclusively resource ttl work).run.run s =
        ((afterTake (key resource) (tokenOf s.tokens) (.once .work) (.ok free)).interpret (answerWith work)).run.run after := by
  obtain ⟨m', hserve, hshows, hframe⟩ := (s.memory.shows_find? s.now (key resource)).serve rfl hcell
  have hdrawn : ({ s with tokens := s.tokens + 1 } : Stage).Reaches .setIfAbsent := hreaches
  obtain ⟨after, hrun, rfl, hconditions⟩ :=
    request_served (r := .setIfAbsent (key resource) (tokenOf s.tokens) ttl) hdrawn hserve
  refine ⟨after, ⟨hconditions.1, hconditions.2, hconditions.3⟩, hframe, hshows, fun work => ?_⟩
  rw [run_exclusively hlong, Turn.run_bind, hrun]

theorem refused_of_live (hlong : ttl.millis ≠ 0) {s : Stage} (hreaches : s.Reaches .setIfAbsent)
    (hlive : (s.memory.visible? s.now (key resource)).isSome) : Refused resource ttl s := by
  obtain ⟨e, hlive⟩ := Option.isSome_iff_exists.1 hlive
  obtain ⟨after, hconditions, hframe, hshows, hrun⟩ :=
    run_taking hlong hreaches (Cell.serve_setIfAbsent_of_live hlong hlive (key resource) (tokenOf s.tokens))
  refine ⟨after, ⟨hconditions, fun other later hl => ?_⟩, fun work => hrun work⟩
  by_cases hother : other = key resource
  · subst hother
    exact hshows later hl
  · exact hframe other hother later hl

/-- Where the lock is free, it is taken, and it is given back after the work. -/
theorem exclusively_of_free (hlong : ttl.millis ≠ 0) {s : Stage} (hreaches : s.Reaches .setIfAbsent)
    (hends : (s.now.add? ttl).isSome) (hfree : s.memory.visible? s.now (key resource) = none) :
    ∃ taken, Taken resource ttl s taken ∧ ∀ {ω : Type} (work : Play ω), (exclusively resource ttl work).run.run s =
      (work >>= fun output => request (.compareAndDelete (key resource) (tokenOf s.tokens)) >>= fun _ =>
        pure (Except.ok (some output))).run.run taken := by
  obtain ⟨taken, hconditions, hframe, hshows, hrun⟩ :=
    run_taking hlong hreaches (Cell.serve_setIfAbsent_of_free hlong hends hfree (key resource) (tokenOf s.tokens))
  exact ⟨taken, ⟨hconditions, hframe, hshows⟩, fun work => hrun work⟩

theorem Taken.holds {s taken : Stage} (h : Taken resource ttl s taken) :
    taken.memory.Shows taken.now (key resource) (some ⟨tokenOf s.tokens, some (s.now.advance ttl)⟩) := by
  rw [h.conditions.now]
  exact h.shows

/-- As long as the time of the owner is not over and the key is left alone, the lock is refused to all other work. -/
theorem Taken.refuses {s taken inside : Stage} (h : Taken resource ttl s taken) (hreaches : s.Reaches .setIfAbsent)
    (hkept : taken.Kept (key resource) inside) (hearly : inside.now.nanos < (s.now.advance ttl).nanos) {ttl' : Duration}
    (hlong : ttl'.millis ≠ 0) : Refused resource ttl' inside := by
  refine refused_of_live hlong (hkept.reaches (h.conditions.reaches hreaches)) ?_
  rw [hkept.shows _ h.holds inside.now (Nat.le_refl _), Cell.live_until, if_pos hearly]
  rfl

end Take

/-- Work under a lock is not run where the lock is taken at the start, and then nothing changes that can be seen. Otherwise it
is run once, beginning with the owner's token under the key, and comes to its output whatever becomes of giving the lock back.
Within the work, as long as the time of the owner is not over and the key is left alone, other work on the same resource is
not run. -/
theorem runs_while_holding (resource : String) {ttl : Duration} (hlong : ttl.millis ≠ 0) {stage : Stage}
    (hreaches : stage.Reaches .setIfAbsent) (hends : (stage.now.add? ttl).isSome) :
    ((stage.memory.visible? stage.now (key resource)).isSome → Refused resource ttl stage) ∧
    (stage.memory.visible? stage.now (key resource) = none → ∃ taken, Taken resource ttl stage taken ∧
      (∀ {ω : Type} (work : Play ω), match work.run.run taken with
        | (.ok output, left) => ∃ final, GivenBack (key resource) (tokenOf stage.tokens) left final ∧
            (exclusively resource ttl work).run.run stage = (.ok (.ok (some output)), final)
        | (.error crash, left) => (exclusively resource ttl work).run.run stage = (.error crash, left)) ∧
      (∀ steps, leaveLock resource steps = true → taken.Kept (key resource) ((playSteps steps).run taken).2) ∧
      ∀ inside, taken.Kept (key resource) inside → inside.now.nanos < (stage.now.advance ttl).nanos →
        ∀ {ttl' : Duration}, ttl'.millis ≠ 0 → Refused resource ttl' inside) := by
  refine ⟨refused_of_live hlong hreaches, fun hfree => ?_⟩
  obtain ⟨taken, htaken, hrun⟩ := exclusively_of_free hlong hreaches hends hfree
  refine ⟨taken, htaken, fun work => ?_, fun steps hsteps => spares_playSteps resource steps hsteps taken,
    fun inside hkept hearly _ => htaken.refuses hreaches hkept hearly⟩
  rw [hrun, Turn.run_bind]
  rcases work.run.run taken with ⟨crash | output, left⟩
  · rfl
  · obtain ⟨outcome, final, hrequest, hback⟩ := request_compareAndDelete (key resource) (tokenOf stage.tokens) left
    refine ⟨final, hback, ?_⟩
    show (request _ >>= fun _ => pure _ : Play _).run.run left = _
    rw [Turn.run_bind, hrequest]
    rfl

theorem playStep_runExclusive (resource : String) (ttl : Duration) (steps : List Step) :
    playStep (.runExclusive resource ttl steps) =
      (exclusively resource ttl (playSteps steps : Play (List Line)) >>= fun outcome =>
        match outcome with
        | .ok lines? => pure (.exclusive lines?)
        | .error failure => pure (.failed failure)) := by
  rw [playStep, report]
  apply bind_congr
  intro outcome
  cases outcome with
  | ok lines? => rfl
  | error failure => rfl

/-- Work of most of a second under a lock of a second, at the end of which the lock is asked for again. -/
theorem nested_work_is_refused :
    let stage := Stage.initial .standard
    let second := Duration.ofSeconds 1
    let work := [Step.advance (.ofMillis 999)]
    second.millis ≠ 0 ∧ stage.Reaches .setIfAbsent ∧ (stage.now.add? second).isSome ∧
      ∃ taken, Taken "r" second stage taken ∧
        (∃ after, ∀ nested, (playStep (.runExclusive "r" second nested)).run.run ((playSteps work).run taken).2 =
          (.ok (.exclusive none), after)) ∧
        ∃ output final, (exclusively "r" second (playSteps work)).run.run stage = (.ok (.ok (some output)), final) ∧
          final.memory.visible? final.now (key "r") = none := by
  intro stage second work
  have hlong : second.millis ≠ 0 := by decide
  have hreaches : stage.Reaches .setIfAbsent := ⟨rfl, rfl⟩
  have hends : (stage.now.add? second).isSome := by decide
  obtain ⟨taken, htaken, hruns, hkept, hnested⟩ := (runs_while_holding "r" hlong hreaches hends).2 rfl
  let inside := ((playSteps work).run taken).2
  have hstart : taken.now = ⟨0⟩ := htaken.conditions.now
  have hnow : inside.now = ⟨999000000⟩ := congrArg (fun t => t.advance (.ofMillis 999)) hstart
  have hearly : inside.now.nanos < (stage.now.advance second).nanos := by
    rw [hnow]
    decide
  refine ⟨hlong, hreaches, hends, taken, htaken, ?_, ?_⟩
  · obtain ⟨after, _, hrun⟩ := hnested inside (hkept work rfl) hearly hlong
    refine ⟨after, fun nested => ?_⟩
    rw [playStep_runExclusive, Turn.run_bind, hrun]
    rfl
  · have hwork : (liftM (playSteps work) : Play (List Line)).run.run taken = (.ok ((playSteps work).run taken).1, inside) := rfl
    have hran := hruns (liftM (playSteps work))
    rw [hwork] at hran
    obtain ⟨final, hback, hrun⟩ := hran
    refine ⟨_, final, hrun, ?_⟩
    have hreached : inside.Reaches .compareAndDelete := htaken.conditions.reaches ⟨rfl, rfl⟩
    have hheld : (inside.memory.visible? inside.now (key "r")).map Entry.value = some (tokenOf 0) := by
      rw [(hkept work rfl).shows _ htaken.holds inside.now (Nat.le_refl _), Cell.live_until, if_pos hearly]
      rfl
    rw [hback.now]
    exact hback.removed hreached hheld inside.now (Nat.le_refl _)

end Coordination.Lock
