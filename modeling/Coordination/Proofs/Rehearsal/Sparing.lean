import Coordination.Rehearsal.Run
import Coordination.Proofs.Http.Admission
import Coordination.Proofs.Services.Subject

/-! # What a rehearsal leaves alone

The plays of a rehearsal change the stage by serving requests, by letting time pass and by keeping their own records. A play
spares a key if, wherever it begins, the key shows afterwards what it showed before. Steps that have nothing to do with a lock
spare its key, however deep they are nested and whatever services they use, because the services have keys of their own.
-/
namespace Coordination.Rehearsal
open Store (Operation Request)

namespace Stage

/-- A request gets through to the memory: the store is within reach, and no reply is scripted. -/
def Reaches (s : Stage) (op : Operation) : Prop := s.outage = none ∧ nextReply? op s.scripts = none

/-- A later stage at which a key shows what it showed, and a lock can be asked for if it could before. -/
structure Kept (key : String) (s s' : Stage) : Prop where
  later : s.now.nanos ≤ s'.now.nanos
  shows : ∀ c, s.memory.Shows s.now key c → s'.memory.Shows s'.now key c
  reaches : s.Reaches .setIfAbsent → s'.Reaches .setIfAbsent

theorem Kept.refl (key : String) (s : Stage) : s.Kept key s := ⟨Nat.le_refl _, fun _ h => h, fun h => h⟩

theorem Kept.trans {key : String} {s s' s'' : Stage} (h : s.Kept key s') (h' : s'.Kept key s'') : s.Kept key s'' :=
  ⟨Nat.le_trans h.later h'.later, fun c hc => h'.shows c (h.shows c hc), fun hs => h'.reaches (h.reaches hs)⟩

end Stage

theorem nextReply?_cons_of_ne {op : Operation} {s : Script} (h : s.operation ≠ op) (scripts : List Script) :
    nextReply? op (s :: scripts) = (nextReply? op scripts).map fun (reply, rest) => (reply, s :: rest) := by
  rw [nextReply?, dif_neg h]

theorem nextReply?_of_drawn {op drawn : Operation} {scripts rest : List Script} {reply : Except Failure drawn.Reply}
    (hnone : nextReply? op scripts = none) (hdrawn : nextReply? drawn scripts = some (reply, rest)) :
    nextReply? op rest = none := by
  induction scripts generalizing rest with
  | nil => cases hdrawn
  | cons s scripts ih =>
    by_cases hop : s.operation = op
    · obtain ⟨operation, replies, forever⟩ := s
      subst hop
      have hempty : replies = [] := by
        rcases replies with _ | ⟨_, _ | ⟨_, _⟩⟩
        · rfl
        · simp [nextReply?] at hnone
        · simp [nextReply?] at hnone
      subst hempty
      have hne : operation ≠ drawn := by
        rintro rfl
        rw [hnone] at hdrawn
        cases hdrawn
      rw [nextReply?_cons_of_ne hne] at hdrawn
      obtain ⟨_, _, heq⟩ := Option.map_eq_some_iff.1 hdrawn
      cases heq
      simp [nextReply?]
    · rw [nextReply?_cons_of_ne hop, Option.map_eq_none_iff] at hnone
      by_cases hdraws : s.operation = drawn
      · obtain ⟨operation, replies, forever⟩ := s
        subst hdraws
        have hne : operation ≠ op := hop
        rcases replies with _ | ⟨_, _ | ⟨_, _⟩⟩
        · simp [nextReply?] at hdrawn
        · simp only [nextReply?, dif_pos] at hdrawn
          cases hdrawn
          split
          · rw [nextReply?_cons_of_ne hne, hnone, Option.map_none]
          · exact hnone
        · simp only [nextReply?, dif_pos] at hdrawn
          cases hdrawn
          rw [nextReply?_cons_of_ne hne, hnone, Option.map_none]
      · rw [nextReply?_cons_of_ne hdraws] at hdrawn
        obtain ⟨⟨_, rest'⟩, hrest, heq⟩ := Option.map_eq_some_iff.1 hdrawn
        cases heq
        rw [nextReply?_cons_of_ne hop, ih hnone hrest, Option.map_none]

/-- Wherever it begins, the play leaves what the key shows. -/
def Spares (key : String) {α : Type} (p : StateM Stage α) : Prop := ∀ s : Stage, s.Kept key (p.run s).2

section Plays
variable {key : String} {α β : Type}

theorem spares_pure (a : α) : Spares key (pure a : StateM Stage α) := .refl key

theorem spares_get : Spares key (get : StateM Stage Stage) := .refl key

theorem spares_bind {x : StateM Stage α} {f : α → StateM Stage β} (hx : Spares key x) (hf : ∀ a, Spares key (f a)) :
    Spares key (x >>= f) :=
  fun s => (hx s).trans (hf _ _)

theorem spares_play_bind {x : Play α} {f : α → Play β} (hx : Spares key x.run) (hf : ∀ a, Spares key (f a).run) :
    Spares key (x >>= f).run := by
  rw [ExceptT.run_bind]
  refine spares_bind hx fun outcome => ?_
  cases outcome with
  | ok a => exact hf a
  | error c => exact spares_pure _

theorem spares_lift {x : StateM Stage α} (h : Spares key x) : Spares key (liftM x : Play α).run :=
  spares_bind h fun _ => spares_pure _

theorem spares_handled {x : Play α} (h : Spares key x.run) (handled : Handled) :
    Spares key ((liftM x : StateT Handled Play α).run handled).run :=
  spares_play_bind h fun a => spares_pure (Except.ok (a, handled))

theorem run_serve (r : Request) (s : Stage) : (serve r).run.run s = match s.outage with
    | some message => (.ok (.error (.unavailable (.reported message))), s)
    | none =>
      match nextReply? r.operation s.scripts with
      | some (reply, scripts) => (.ok reply, { s with scripts := scripts })
      | none => ((s.memory.serve s.now r).1, { s with memory := (s.memory.serve s.now r).2 }) := by
  show ((match s.outage with | some _ => _ | none => _ : Play _).run.run s) = _
  cases s.outage with
  | some message => rfl
  | none =>
    dsimp only
    rcases nextReply? r.operation s.scripts with _ | ⟨reply, scripts⟩
    · rfl
    · rfl

theorem spares_serve {r : Request} (h : r.leaves key = true) : Spares key (serve r).run := by
  intro s
  rw [run_serve]
  split
  · exact .refl key s
  · split
    · next hreply => exact ⟨Nat.le_refl _, fun _ hc => hc, fun hs => ⟨hs.1, nextReply?_of_drawn hs.2 hreply⟩⟩
    · exact ⟨Nat.le_refl _, fun _ hc => hc.kept h rfl, fun hs => hs⟩

theorem spares_record (call : Call) : Spares key (record call).run :=
  fun _ => ⟨Nat.le_refl _, fun _ h => h, fun h => h⟩

theorem spares_request {r : Request} (h : r.leaves key = true) : Spares key (request r).run :=
  spares_play_bind (spares_serve h) fun _ => spares_play_bind (spares_record _) fun _ => spares_pure _

theorem spares_drawToken : Spares key drawToken.run := fun _ => ⟨Nat.le_refl _, fun _ h => h, fun h => h⟩

theorem spares_interpret {ω : Type} {work : Play ω} (hwork : Spares key work.run) {p : Program ω α}
    (h : p.Sends fun r => r.leaves key = true) : Spares key (p.interpret (answerWith work)).run :=
  h.interpret (fun {_} (x : Play _) => Spares key x.run) (fun a => spares_pure (Except.ok a)) spares_play_bind
    (fun _ => spares_request) spares_drawToken (spares_pure _) hwork

theorem spares_report {ω : Type} {work : Play ω} (hwork : Spares key work.run) {a : Action ω α}
    (h : a.run.Sends fun r => r.leaves key = true) (shown : α → Report) : Spares key (report work a shown).run := by
  refine spares_play_bind (spares_interpret hwork h) fun outcome => ?_
  cases outcome with
  | ok result => exact spares_pure _
  | error failure => exact spares_pure _

theorem spares_reportAlone {a : Action Unit α} (h : a.run.Sends fun r => r.leaves key = true) (shown : α → Report) :
    Spares key (reportAlone a shown).run :=
  spares_report (spares_pure _) h shown

theorem spares_lineOf {play : Play Report} (h : Spares key play.run) : Spares key (lineOf play) := by
  intro s
  have hkept := h { s with calls := [] }
  exact ⟨hkept.later, hkept.shows, hkept.reaches⟩

theorem spares_playRounds {round : StateM Stage (List Line)} (h : Spares key round) (times : Nat) (last : List Line) :
    Spares key (playRounds round times last) := by
  induction times generalizing last with
  | zero => exact spares_pure last
  | succ times ih => exact spares_bind h ih

theorem spares_playFill (stem value : String) (ttl : Option Duration) (count i : Nat) (last : Report)
    (h : ∀ j < count, s!"{stem}{i + j}" ≠ key) : Spares key (playFill stem value ttl count i last).run := by
  induction count generalizing i last with
  | zero => exact spares_pure _
  | succ count ih =>
    have hrest : ∀ j < count, s!"{stem}{i + 1 + j}" ≠ key := by
      intro j hj
      have hnext := h (j + 1) (by omega)
      rwa [Nat.add_comm j 1, ← Nat.add_assoc] at hnext
    have hfirst : (Request.set s!"{stem}{i}" value ttl).leaves key = true :=
      Request.leaves_of_ne fun heq => h 0 (by omega) (Option.some.inj heq)
    refine spares_play_bind (spares_serve hfirst) fun outcome => ?_
    cases outcome with
    | ok _ => exact ih (i + 1) _ hrest
    | error failure => exact ih (i + 1) _ hrest

end Plays

section Services
variable {r : Request}

theorem leaves_of_owned (subject : Services.Subject) {resource key : String} (hkey : r.key? = some key)
    (howns : subject.Owns key) (hne : subject ≠ .lock resource) : r.leaves (Lock.key resource) = true := by
  apply Request.leaves_of_ne
  intro heq
  obtain rfl : key = Lock.key resource := Option.some.inj (hkey.symm.trans heq)
  have hlock : (Services.Subject.lock resource).Owns (Lock.key resource) := rfl
  exact hne (howns.unique hlock)

theorem leaves_of_lock {resource key : String} (hne : key ≠ Lock.key resource) (h : Lock.Sent key r) :
    r.leaves (Lock.key resource) = true := by
  apply Request.leaves_of_ne
  cases h <;> exact fun heq => hne (Option.some.inj heq)

theorem leaves_of_rateLimit (resource : String) {context : RateLimit.Context} (h : RateLimit.SentFor context r) :
    r.leaves (Lock.key resource) = true := by
  obtain ⟨d, value, _, hsent⟩ := h
  cases hsent with
  | look | wait | mark => exact leaves_of_owned (.limited d value) rfl (.inl rfl) nofun
  | count window ttl => exact leaves_of_owned (.limited d value) rfl (.inr ⟨window, rfl⟩) nofun

theorem leaves_of_idempotency (resource : String) {key : String} (h : Idempotency.Sent key r) :
    r.leaves (Lock.key resource) = true := by
  cases h <;> exact leaves_of_owned (.idempotent key) rfl rfl nofun

theorem leaves_of_http (resource : String) (h : Http.Sent r) : r.leaves (Lock.key resource) = true := by
  cases h with
  | limit h => exact leaves_of_rateLimit resource h
  | record h => exact leaves_of_idempotency resource h

/-- The keys of a subject of sign-ins are no keys of locks, whatever its digests are. -/
theorem leaves_of_signIn (resource : String) {s : SignIn.Subject} (h : SignIn.Sent s r) :
    r.leaves (Lock.key resource) = true := by
  have hne : ∀ record, s.key record ≠ Lock.key resource := by
    intro record heq
    have hlist := congrArg String.toList heq
    rw [SignIn.Subject.toList_key, Lock.key, String.toList_append] at hlist
    cases hlist
  apply Request.leaves_of_ne
  cases h <;> exact fun heq => hne _ (Option.some.inj heq)

end Services

section Operations
variable (resource : String)

theorem spares_reportStanding (key : String) (standing : Idempotency.Standing) : Spares key (reportStanding standing).run := by
  cases standing with
  | inFlight => exact spares_pure _
  | cached response => exact spares_pure _
  | acquired ticket => exact fun _ => ⟨Nat.le_refl _, fun _ h => h, fun h => h⟩

theorem spares_playClaim (key : String) : Spares (Lock.key resource) (playClaim key).run := by
  refine spares_play_bind spares_get fun stage => ?_
  have hsends := (Idempotency.check_strict (ω := Unit) stage.services.idempotency key).sends
  refine spares_play_bind (spares_interpret (spares_pure _) (hsends.mono fun _ => leaves_of_idempotency resource)) ?_
  intro outcome
  cases outcome with
  | ok standing => exact spares_reportStanding _ standing
  | error failure => exact spares_pure _

theorem spares_playInspect (key : String) : Spares (Lock.key resource) (playInspect key).run := by
  have hsends := (Idempotency.inspect_strict (ω := Unit) key).sends
  refine spares_play_bind (spares_interpret (spares_pure _) (hsends.mono fun _ => leaves_of_idempotency resource)) ?_
  intro outcome
  rcases outcome with failure | _ | standing
  · exact spares_pure _
  · exact spares_pure _
  · exact spares_reportStanding _ standing

theorem spares_playRelease (number : Nat) : Spares (Lock.key resource) (playRelease number).run := by
  refine spares_play_bind spares_get fun stage => ?_
  cases stage.tickets[number]? with
  | none => exact spares_pure _
  | some ticket =>
    exact spares_reportAlone ((Idempotency.release_strict ticket).sends.mono fun _ => leaves_of_idempotency resource) _

theorem spares_playSignIn (rules : SignIn.Rules) (s : SignIn.Subject) (act : SignInAct) :
    Spares (Lock.key resource) (playSignIn rules s act).run := by
  have hstrict : ∀ {α : Type} {a : Action Unit α}, Action.Strict (SignIn.Sent s) a →
      a.run.Sends fun r => r.leaves (Lock.key resource) = true :=
    fun h => h.sends.mono fun _ => leaves_of_signIn resource
  cases act with
  | check => exact spares_reportAlone (hstrict (SignIn.check_strict s)) _
  | fail => exact spares_reportAlone (hstrict (SignIn.recordFailure_strict rules s)) _
  | succeed remember => exact spares_reportAlone (hstrict (SignIn.recordSuccess_strict rules s remember)) _
  | isKnownGood => exact spares_reportAlone (hstrict (SignIn.isKnownGood_strict s)) _
  | incrementFailures => exact spares_reportAlone (hstrict (SignIn.incrementFailures_strict rules s)) _
  | failureCount => exact spares_reportAlone (hstrict (SignIn.failureCount_strict s)) _
  | lockedSeconds => exact spares_reportAlone (hstrict (SignIn.lockedSeconds_strict s)) _
  | setLocked seconds => exact spares_reportAlone (hstrict (SignIn.setLocked_strict s seconds)) _
  | clear => exact spares_reportAlone (hstrict (SignIn.clear_strict s)) _
  | markKnownGood => exact spares_reportAlone (hstrict (SignIn.markKnownGood_strict rules s)) _

theorem spares_noteClock (key : String) : Spares key noteClock.run := fun _ => ⟨Nat.le_refl _, fun _ h => h, fun h => h⟩

theorem spares_playCheckRate (context : RateLimit.Context) (nowMs : Option Int) :
    Spares (Lock.key resource) (playCheckRate context nowMs).run := by
  cases nowMs with
  | some nowMs =>
    refine spares_play_bind spares_get fun stage => spares_reportAlone ?_ _
    exact (RateLimit.checkAt_strict ..).sends.mono fun _ => leaves_of_rateLimit resource
  | none =>
    refine spares_play_bind (spares_noteClock _) fun _ => spares_play_bind spares_get fun stage => spares_reportAlone ?_ _
    exact (RateLimit.check_strict ..).sends.mono fun _ => leaves_of_rateLimit resource

theorem spares_playHttp (layers : List Http.Layer) (request : Http.Request) (answer : Http.Response)
    {handle : StateM Stage (List Line)} (hhandle : Spares (Lock.key resource) handle) :
    Spares (Lock.key resource) (playHttp layers request answer handle).run := by
  refine spares_play_bind (spares_noteClock _) fun _ => spares_play_bind spares_get fun stage => ?_
  refine spares_play_bind ?_ fun _ => spares_pure _
  have hsends := (Http.serve_sends stage.services request layers).mono fun _ => leaves_of_http resource
  refine hsends.interpret (fun {_} (x : StateT Handled Play _) => ∀ handled, Spares (Lock.key resource) (x.run handled).run)
    ?_ ?_ ?_ ?_ ?_ ?_ ⟨0, []⟩
  · exact fun a handled => spares_pure _
  · exact fun hx hf handled => spares_play_bind (hx handled) fun (a, handled) => hf a handled
  · exact fun r hr => spares_handled (spares_request hr)
  · exact spares_handled spares_drawToken
  · exact fun handled => spares_pure _
  · exact fun handled => spares_play_bind (spares_handled (spares_lift hhandle) handled) fun _ => spares_pure _

end Operations

mutual
/-- The step neither asks for the lock on a resource nor gives it back, nor does it write its key or change how the store
answers. -/
def Step.leavesLock (resource : String) : Step → Bool
  | .store r => r.leaves (Lock.key resource)
  | .fill stem count _ _ => (List.range count).all fun i => s!"{stem}{i}" != Lock.key resource
  | .script _ | .outage _ => false
  | .rounds _ steps | .http _ _ _ steps => leaveLock resource steps
  | .acquireLock key _ _ | .releaseLock key _ => key != Lock.key resource
  | .runExclusive other _ steps => other != resource && leaveLock resource steps
  | .advance _ | .health | .isEmpty | .checkRate .. | .claim _ | .inspect _ | .release _ | .complete .. | .signIn ..
  | .policyDelay _ => true

def leaveLock (resource : String) : List Step → Bool
  | [] => true
  | step :: rest => step.leavesLock resource && leaveLock resource rest
end

mutual
theorem spares_playStep (resource : String) (step : Step) (h : step.leavesLock resource = true) :
    Spares (Lock.key resource) (playStep step).run := by
  cases step with
  | store r => exact spares_play_bind (spares_serve h) fun _ => spares_play_bind (spares_record _) fun _ => spares_pure _
  | fill stem count value ttl =>
    apply spares_playFill
    intro j hj
    rw [Nat.zero_add]
    exact bne_iff_ne.1 (List.all_eq_true.1 h j (List.mem_range.2 hj))
  | advance d => exact fun s => ⟨Nat.le_add_right .., fun _ hc => hc.later (Nat.le_add_right ..), fun hs => hs⟩
  | health => exact spares_reportAlone (Action.sends_call rfl) _
  | isEmpty => exact spares_play_bind spares_get fun _ => spares_pure _
  | script s => cases h
  | outage message => cases h
  | rounds times steps =>
    have hround := spares_playSteps resource steps h
    exact spares_play_bind (spares_lift (spares_playRounds hround times [])) fun _ => spares_pure _
  | acquireLock key owner ttl =>
    have hsends := (Lock.acquire_strict (ω := Unit) key owner ttl).sends
    exact spares_reportAlone (hsends.mono fun _ => leaves_of_lock (bne_iff_ne.1 h)) _
  | releaseLock key owner =>
    have hsends := (Lock.release_strict (ω := Unit) key owner).sends
    exact spares_reportAlone (hsends.mono fun _ => leaves_of_lock (bne_iff_ne.1 h)) _
  | runExclusive other ttl steps =>
    obtain ⟨hother, hsteps⟩ := Bool.and_eq_true_iff.1 h
    have hne : Lock.key other ≠ Lock.key resource := fun heq => bne_iff_ne.1 hother ((String.append_right_inj _).1 heq)
    have hwork : (Program.once .work : Program (List Line) (List Line)).Sends fun r => r.leaves (Lock.key resource) = true :=
      fun _ => trivial
    have hsends := Lock.runExclusive_sends other ttl (fun _ => leaves_of_lock hne) hwork
    exact spares_report (spares_lift (spares_playSteps resource steps hsteps)) hsends _
  | checkRate context nowMs => exact spares_playCheckRate resource context nowMs
  | claim key => exact spares_playClaim resource key
  | inspect key => exact spares_playInspect resource key
  | release ticket => exact spares_playRelease resource ticket
  | complete key response =>
    refine spares_play_bind spares_get fun stage => spares_reportAlone ?_ _
    exact (Idempotency.complete_strict ..).sends.mono fun _ => leaves_of_idempotency resource
  | signIn subject act => exact spares_play_bind spares_get fun stage => spares_playSignIn resource _ subject act
  | policyDelay failures => exact spares_play_bind spares_get fun _ => spares_pure _
  | http layers request answer steps =>
    exact spares_playHttp resource layers request answer (spares_playSteps resource steps h)

theorem spares_playSteps (resource : String) (steps : List Step) (h : leaveLock resource steps = true) :
    Spares (Lock.key resource) (playSteps steps) := by
  cases steps with
  | nil => exact spares_pure _
  | cons step rest =>
    obtain ⟨hstep, hrest⟩ := Bool.and_eq_true_iff.1 h
    exact spares_bind (spares_lineOf (spares_playStep resource step hstep)) fun _ =>
      spares_bind (spares_playSteps resource rest hrest) fun _ => spares_pure _
end

end Coordination.Rehearsal
