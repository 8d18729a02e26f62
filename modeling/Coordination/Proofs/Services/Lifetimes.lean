import Coordination.Proofs.Services.Operation
import Coordination.Proofs.Settings.Accepted
import Coordination.Proofs.SignIn.Census
import Coordination.Proofs.Store.Failing

/-! # Lifetimes that the settings give

What an operation writes has a lifetime that its rules name, or the length of a lock. With accepted settings every one of
them is a millisecond at least, so that the store never finds an argument wrong, and an operation does so itself for the
owner of a lock and for an idempotency key only.
-/
namespace Coordination

variable {ω α β : Type} {T : Duration → Prop} {Bad : BadArgument → Prop}

/-- The request has no lifetime but such a one. -/
def Store.Request.Bears (T : Duration → Prop) (r : Store.Request) : Prop := ∀ ttl, r.ttl? = some ttl → T ttl

theorem Store.Request.Bears.of_ttl {r : Store.Request} {ttl : Duration} (hr : r.ttl? = some ttl) (h : T ttl) : r.Bears T := by
  intro ttl' hr'
  obtain rfl := Option.some.inj (hr.symm.trans hr')
  exact h

/-- The program finds an argument wrong for such causes only, if the store never does and no token is empty. -/
def Program.Objects (Bad : BadArgument → Prop) : Program ω (Except Failure α) → Prop
  | .done outcome => ∀ cause, outcome = .error (.invalidArgument cause) → Bad cause
  | .ask (.store _) next => ∀ reply, (∀ cause, reply ≠ .error (.invalidArgument cause)) → (next reply).Objects Bad
  | .ask .token next => ∀ t, t ≠ "" → (next t).Objects Bad
  | .ask .clock next => ∀ ms, (next ms).Objects Bad
  | .ask .work next => ∀ w, (next w).Objects Bad

namespace Action

/-- The action writes with such lifetimes and finds an argument wrong for such causes only. -/
structure Orderly (T : Duration → Prop) (Bad : BadArgument → Prop) (x : Action ω α) : Prop where
  sends : x.run.Sends (Store.Request.Bears T)
  objects : x.run.Objects Bad

theorem orderly_pure (a : α) : Orderly T Bad (pure a : Action ω α) := ⟨trivial, nofun⟩

theorem orderly_call {r : Store.Request} (h : r.Bears T) : Orderly T Bad (call r : Action ω r.Reply) :=
  ⟨sends_call h, fun _ hreply cause heq => absurd heq (hreply cause)⟩

theorem orderly_token : Orderly T Bad (token : Action ω String) := ⟨fun _ => trivial, fun _ _ => nofun⟩

theorem orderly_clock : Orderly T Bad (clock : Action ω Int) := ⟨fun _ => trivial, fun _ => nofun⟩

theorem orderly_ofExcept {e : Except Failure α} (h : ∀ cause, e = .error (.invalidArgument cause) → Bad cause) :
    Orderly T Bad (ofExcept e : Action ω α) := by
  refine ⟨sends_ofExcept e, ?_⟩
  rw [run_ofExcept]
  exact h

theorem objects_bind {x : Action ω α} {f : α → Action ω β} (hx : x.run.Objects Bad) (hf : ∀ a, (f a).run.Objects Bad) :
    (x >>= f).run.Objects Bad := by
  rw [run_bind]
  have hgo : ∀ p : Program ω (Except Failure α), p.Objects Bad → (p.bind (onSuccess f)).Objects Bad := by
    intro p hp
    induction p with
    | done outcome =>
      cases outcome with
      | ok a => exact hf a
      | error failure =>
        rintro cause ⟨⟩
        exact hp cause rfl
    | ask q next ih =>
      cases q with
      | store r => exact fun reply hreply => ih reply (hp reply hreply)
      | token => exact fun t ht => ih t (hp t ht)
      | clock => exact fun ms => ih ms (hp ms)
      | work => exact fun w => ih w (hp w)
  exact hgo x.run hx

theorem orderly_bind {x : Action ω α} {f : α → Action ω β} (hx : Orderly T Bad x) (hf : ∀ a, Orderly T Bad (f a)) :
    Orderly T Bad (x >>= f) :=
  ⟨sends_bind hx.sends fun a => (hf a).sends, objects_bind hx.objects fun a => (hf a).objects⟩

theorem orderly_map {x : Action ω α} (hx : Orderly T Bad x) (f : α → β) : Orderly T Bad (f <$> x) := by
  rw [map_eq_pure_bind]
  exact orderly_bind hx fun _ => orderly_pure _

theorem Orderly.mono {T' : Duration → Prop} {x : Action ω α} (h : Orderly T Bad x) (himp : ∀ ttl, T ttl → T' ttl) :
    Orderly T' Bad x :=
  ⟨h.sends.mono fun _ hr ttl httl => himp ttl (hr ttl httl), h.objects⟩

theorem orderly_lift {p : Program ω α} (hp : p.Sends (Store.Request.Bears T)) :
    Orderly T Bad (ExceptT.lift p : Action ω α) := by
  refine ⟨hp.bind fun _ => trivial, ?_⟩
  show (p.bind fun a => Program.done (Except.ok a)).Objects Bad
  induction p with
  | done a => exact nofun
  | ask q next ih =>
    cases q with
    | store r => exact fun reply _ => ih reply (hp.2 reply)
    | token => exact fun t _ => ih t (hp t)
    | clock => exact fun ms => ih ms (hp ms)
    | work => exact fun w => ih w (hp w)

end Action

open Coordination.Action
open Store (Memory)

namespace SignIn

/-- The lifetimes that a throttle writes with when it is asked to do something. -/
inductive Call.Lasts : Call → Duration → Prop
  | lock (s : Subject) {seconds : Nat} (h : seconds ≠ 0) : Lasts (.setLocked s seconds) (.ofSeconds seconds)
  | count (rules : Rules) (s : Subject) : Lasts (.incrementFailures rules s) rules.failureTtl
  | remember (rules : Rules) (s : Subject) : Lasts (.markKnownGood rules s) rules.knownGoodTtl
  | failure (rules : Rules) (s : Subject) : Lasts (.recordFailure rules s) rules.failureTtl
  | lockout (rules : Rules) (s : Subject) {n : Int} (h : rules.policy.lockout n ≠ 0) :
    Lasts (.recordFailure rules s) (.ofSeconds (rules.policy.lockout n))
  | success (rules : Rules) (s : Subject) : Lasts (.recordSuccess rules s true) rules.knownGoodTtl

section Calls
variable (s : Subject)

theorem isKnownGood_orderly : Orderly T Bad (isKnownGood s : Action ω Bool) :=
  orderly_bind (orderly_call nofun) fun _ => orderly_pure _

theorem failureCount_orderly : Orderly T Bad (failureCount s : Action ω Int) := by
  refine orderly_bind (orderly_call nofun) fun text? => ?_
  cases text? with
  | none => exact orderly_pure _
  | some text =>
    refine orderly_ofExcept fun cause h => ?_
    unfold countOf at h
    split at h <;> cases h

theorem lockedSeconds_orderly : Orderly T Bad (lockedSeconds s : Action ω Int) := by
  refine orderly_bind (orderly_call nofun) fun left? => ?_
  cases left? with
  | none => exact orderly_pure _
  | some left => exact orderly_pure _

theorem check_orderly : Orderly T Bad (check s : Action ω Standing) := by
  refine orderly_bind (isKnownGood_orderly s) fun known => ?_
  cases known with
  | true => exact orderly_pure _
  | false =>
    refine orderly_bind (lockedSeconds_orderly s) fun seconds => ?_
    split <;> exact orderly_pure _

theorem setLocked_orderly {seconds : Nat} (h : seconds ≠ 0 → T (.ofSeconds seconds)) :
    Orderly T Bad (setLocked s seconds : Action ω Unit) := by
  unfold setLocked
  split
  · exact orderly_pure _
  · next hseconds => exact orderly_call (.of_ttl rfl (h hseconds))

theorem clear_orderly : Orderly T Bad (clear s : Action ω Unit) :=
  orderly_bind (orderly_call nofun) fun _ => orderly_bind (orderly_call nofun) fun _ => orderly_pure _

theorem incrementFailures_orderly {rules : Rules} (h : T rules.failureTtl) :
    Orderly T Bad (rules.incrementFailures s : Action ω Int) := orderly_call (.of_ttl rfl h)

theorem markKnownGood_orderly {rules : Rules} (h : T rules.knownGoodTtl) :
    Orderly T Bad (rules.markKnownGood s : Action ω Unit) := orderly_call (.of_ttl rfl h)

theorem recordFailure_orderly {rules : Rules} (hcount : T rules.failureTtl)
    (hlock : ∀ n, rules.policy.lockout n ≠ 0 → T (.ofSeconds (rules.policy.lockout n))) :
    Orderly T Bad (rules.recordFailure s : Action ω FailureOutcome) := by
  refine orderly_bind (isKnownGood_orderly s) fun known => ?_
  cases known with
  | true => exact orderly_pure _
  | false =>
    refine orderly_bind (incrementFailures_orderly s hcount) fun failures => ?_
    dsimp only
    split
    · exact orderly_pure _
    · exact orderly_bind (setLocked_orderly s (hlock failures)) fun _ => orderly_pure _

theorem recordSuccess_orderly {rules : Rules} {remember : Bool} (h : remember = true → T rules.knownGoodTtl) :
    Orderly T Bad (rules.recordSuccess s remember : Action ω Unit) := by
  refine orderly_bind (clear_orderly s) fun _ => ?_
  cases remember with
  | true => exact markKnownGood_orderly s (h rfl)
  | false => exact orderly_pure _

theorem Call.orderly (call : Call) : Orderly call.Lasts Bad (call.action : Action ω Result) := by
  cases call with
  | isKnownGood s => exact orderly_bind (isKnownGood_orderly s) fun _ => orderly_pure _
  | failureCount s => exact orderly_bind (failureCount_orderly s) fun _ => orderly_pure _
  | lockedSeconds s => exact orderly_bind (lockedSeconds_orderly s) fun _ => orderly_pure _
  | setLocked s seconds => exact orderly_bind (setLocked_orderly s (.lock s)) fun _ => orderly_pure _
  | clear s => exact orderly_bind (clear_orderly s) fun _ => orderly_pure _
  | check s => exact orderly_bind (check_orderly s) fun _ => orderly_pure _
  | incrementFailures rules s => exact orderly_bind (incrementFailures_orderly s (.count rules s)) fun _ => orderly_pure _
  | markKnownGood rules s => exact orderly_bind (markKnownGood_orderly s (.remember rules s)) fun _ => orderly_pure _
  | recordFailure rules s =>
    exact orderly_bind (recordFailure_orderly s (.failure rules s) fun _ => .lockout rules s) fun _ => orderly_pure _
  | recordSuccess rules s remember =>
    refine orderly_bind (recordSuccess_orderly s ?_) fun _ => orderly_pure _
    rintro rfl
    exact .success rules s

end Calls

end SignIn

namespace RateLimit

theorem checkDimensions_orderly {rules : Rules} (hwindow : T rules.window) (hblock : T rules.blockDuration)
    (context : Context) (nowMs : Int) (ds : List Dimension) :
    Orderly T Bad (rules.checkDimensions context nowMs ds : Action ω Decision) := by
  have hdimension : ∀ d value threshold,
      Orderly T Bad (rules.checkDimension d value threshold nowMs : Action ω (Option Decision)) := by
    intro d value threshold
    refine orderly_bind (orderly_call nofun) fun found => ?_
    cases found with
    | some text => exact orderly_bind (orderly_call nofun) fun _ => orderly_pure _
    | none =>
      refine orderly_bind (orderly_call (.of_ttl rfl hwindow)) fun count => ?_
      split
      · exact orderly_pure _
      · exact orderly_bind (orderly_call (.of_ttl rfl hblock)) fun _ => orderly_pure _
  induction ds with
  | nil => exact orderly_pure _
  | cons d rest ih =>
    rw [Rules.checkDimensions]
    cases rules.eligible? context d with
    | none => exact ih
    | some counted =>
      refine orderly_bind (hdimension d ..) fun outcome => ?_
      cases outcome with
      | none => exact ih
      | some decision => exact orderly_pure _

end RateLimit

namespace Idempotency

inductive KeyFault : String → BadArgument → Prop
  | empty : KeyFault "" .emptyKey
  | long {key : String} (h : maxKeyBytes < key.utf8ByteSize) : KeyFault key (.keyTooLong maxKeyBytes)

theorem checkKey_eq_error_iff {key : String} {cause : BadArgument} :
    checkKey key = .error (.invalidArgument cause) ↔ KeyFault key cause := by
  unfold checkKey
  constructor
  · intro h
    split at h
    · next hempty =>
      cases h
      obtain rfl := String.isEmpty_iff.1 hempty
      exact .empty
    · split at h
      · next hlong =>
        cases h
        exact .long hlong
      · cases h
  · intro h
    cases h with
    | empty => rfl
    | long hlong =>
      have hfilled : key.isEmpty = false := by
        refine Bool.eq_false_iff.2 fun hempty => ?_
        obtain rfl := String.isEmpty_iff.1 hempty
        exact absurd hlong (by decide)
      rw [hfilled, if_pos hlong]
      rfl

section Calls
variable {limits : Limits} {key : String}

theorem checkKey_orderly (hkey : ∀ cause, KeyFault key cause → Bad cause) :
    Orderly T Bad (Action.ofExcept (checkKey key) : Action ω Unit) :=
  orderly_ofExcept fun cause h => hkey cause (checkKey_eq_error_iff.1 h)

theorem standingOf_orderly (text : String) : Orderly T Bad (Action.ofExcept (standingOf text) : Action ω Standing) := by
  refine orderly_ofExcept fun cause h => ?_
  unfold standingOf at h
  split at h <;> cases h

theorem check_orderly (hclaim : T limits.inFlightTtl) (hkey : ∀ cause, KeyFault key cause → Bad cause) :
    Orderly T Bad (limits.check key : Action ω Standing) := by
  refine orderly_bind (checkKey_orderly hkey) fun _ => ?_
  refine orderly_bind orderly_token fun token => orderly_bind orderly_clock fun startedAt => ?_
  refine orderly_bind (orderly_call (.of_ttl rfl hclaim)) fun won => ?_
  cases won with
  | true => exact orderly_pure _
  | false =>
    refine orderly_bind (orderly_call nofun) fun found => ?_
    cases found with
    | none => exact orderly_pure _
    | some text => exact standingOf_orderly text

theorem complete_orderly (response : CachedResponse) (hcache : T limits.cacheTtl)
    (hkey : ∀ cause, KeyFault key cause → Bad cause) :
    Orderly T Bad (limits.complete key response : Action ω Completion) := by
  refine orderly_bind (checkKey_orderly hkey) fun _ => ?_
  dsimp only
  split
  · exact orderly_pure _
  · exact orderly_bind (orderly_call (.of_ttl rfl hcache)) fun _ => orderly_pure _

theorem inspect_orderly (hkey : ∀ cause, KeyFault key cause → Bad cause) :
    Orderly T Bad (inspect key : Action ω (Option Standing)) := by
  refine orderly_bind (checkKey_orderly hkey) fun _ => ?_
  refine orderly_bind (orderly_call nofun) fun found => ?_
  cases found with
  | none => exact orderly_pure _
  | some text => exact orderly_map (standingOf_orderly text) _

end Calls

end Idempotency

namespace Lock

theorem isZero_of_millis {ttl : Duration} (hlong : ttl.millis ≠ 0) : ttl.isZero = false := by
  simp only [Duration.isZero, beq_eq_false_iff_ne]
  intro hzero
  exact hlong (by rw [Duration.millis, hzero, Nat.zero_div])

theorem checkArguments_eq_error {owner : String} {ttl : Duration} {cause : BadArgument} (hlong : ttl.millis ≠ 0)
    (h : checkArguments owner ttl = .error (.invalidArgument cause)) : owner = "" ∧ cause = .emptyOwner := by
  rw [checkArguments, isZero_of_millis hlong] at h
  cases hempty : owner.isEmpty with
  | true =>
    rw [hempty] at h
    cases h
    exact ⟨String.isEmpty_iff.1 hempty, rfl⟩
  | false =>
    rw [hempty] at h
    cases h

theorem acquire_orderly {key owner : String} {ttl : Duration} (hlong : ttl.millis ≠ 0) (httl : T ttl)
    (howner : owner = "" → Bad .emptyOwner) : Orderly T Bad (acquire key owner ttl : Action ω Bool) := by
  refine orderly_bind (orderly_ofExcept fun cause h => ?_) fun _ => orderly_call (.of_ttl rfl httl)
  obtain ⟨hempty, rfl⟩ := checkArguments_eq_error hlong h
  exact howner hempty

theorem runExclusive_orderly {resource : String} {ttl : Duration} (hlong : ttl.millis ≠ 0) (httl : T ttl)
    {work : Program ω α} (hwork : work.Sends (Store.Request.Bears T)) :
    Orderly T Bad (runExclusive resource ttl work : Action ω (Option α)) := by
  have hrest : ∀ (B : BadArgument → Prop) (owner : String), (owner = "" → B .emptyOwner) → Orderly T B (do
      if ← acquire (key resource) owner ttl then
        let output ← Action.perform work
        let _ ← Action.outcome (release (key resource) owner)
        pure (some output)
      else
        pure none : Action ω (Option α)) := by
    intro B owner howner
    refine orderly_bind (acquire_orderly hlong httl howner) fun won => ?_
    cases won with
    | false => exact orderly_pure _
    | true =>
      refine orderly_bind (orderly_lift hwork) fun output => ?_
      exact orderly_bind (orderly_lift (sends_call nofun)) fun _ => orderly_pure _
  exact ⟨fun t => (hrest (fun _ => True) t fun _ => trivial).sends, fun t ht => (hrest Bad t fun h => absurd h ht).objects⟩

end Lock

namespace Services.Operation

/-- The lifetimes that an operation writes with. -/
inductive Lasts : Operation → Duration → Prop
  | acquire (key owner : String) (ttl : Duration) : Lasts (.acquire key owner ttl) ttl
  | runExclusive (resource : String) (ttl : Duration) : Lasts (.runExclusive resource ttl) ttl
  | window (rules : RateLimit.Rules) (context : RateLimit.Context) : Lasts (.count rules context) rules.window
  | block (rules : RateLimit.Rules) (context : RateLimit.Context) : Lasts (.count rules context) rules.blockDuration
  | windowAt (rules : RateLimit.Rules) (context : RateLimit.Context) (nowMs : Int) :
    Lasts (.countAt rules context nowMs) rules.window
  | blockAt (rules : RateLimit.Rules) (context : RateLimit.Context) (nowMs : Int) :
    Lasts (.countAt rules context nowMs) rules.blockDuration
  | claim (limits : Idempotency.Limits) (key : String) : Lasts (.claim limits key) limits.inFlightTtl
  | complete (limits : Idempotency.Limits) (key : String) (response : Idempotency.CachedResponse) :
    Lasts (.complete limits key response) limits.cacheTtl
  | signIn {call : SignIn.Call} {ttl : Duration} (h : call.Lasts ttl) : Lasts (.signIn call) ttl

def checkedKey? : Operation → Option String
  | .claim _ key | .inspect key | .complete _ key _ => some key
  | _ => none

/-- What an operation finds wrong with its arguments when its lifetimes are long enough. -/
inductive Refuses : Operation → BadArgument → Prop
  | owner (key : String) (ttl : Duration) : Refuses (.acquire key "" ttl) .emptyOwner
  | key {op : Operation} {key : String} {cause : BadArgument} (hkey : op.checkedKey? = some key)
    (h : Idempotency.KeyFault key cause) : Refuses op cause

theorem orderly (op : Operation) (hlong : ∀ ttl, op.Lasts ttl → ttl.millis ≠ 0) :
    Orderly op.Lasts op.Refuses (op.action : Action ω (Answer ω)) := by
  cases op with
  | acquire key owner ttl =>
    refine orderly_bind (Lock.acquire_orderly (hlong _ (.acquire ..)) (.acquire ..) ?_) fun _ => orderly_pure _
    rintro rfl
    exact .owner key ttl
  | giveBack key owner => exact orderly_bind (orderly_call nofun) fun _ => orderly_pure _
  | runExclusive resource ttl =>
    exact orderly_bind (Lock.runExclusive_orderly (hlong _ (.runExclusive ..)) (.runExclusive ..) fun _ => trivial)
      fun _ => orderly_pure _
  | count rules context =>
    refine orderly_bind (orderly_bind orderly_clock fun nowMs => ?_) fun _ => orderly_pure _
    exact RateLimit.checkDimensions_orderly (.window ..) (.block ..) context nowMs _
  | countAt rules context nowMs =>
    exact orderly_bind (RateLimit.checkDimensions_orderly (.windowAt ..) (.blockAt ..) context nowMs _) fun _ => orderly_pure _
  | claim limits key =>
    exact orderly_bind (Idempotency.check_orderly (.claim ..) fun _ => .key rfl) fun _ => orderly_pure _
  | inspect key => exact orderly_bind (Idempotency.inspect_orderly fun _ => .key rfl) fun _ => orderly_pure _
  | complete limits key response =>
    exact orderly_bind (Idempotency.complete_orderly response (.complete ..) fun _ => .key rfl) fun _ => orderly_pure _
  | giveUp ticket => exact orderly_bind (orderly_call nofun) fun _ => orderly_pure _
  | signIn call => exact orderly_bind (call.orderly.mono fun _ => .signIn) fun _ => orderly_pure _

theorem run_return_of_error {x : Action ω α} {f : α → β} {failure : Failure} (h : x.run = .done (.error failure)) :
    (x >>= fun a => pure (f a)).run = .done (.error failure) := by
  rw [run_return, h]
  rfl

theorem run_of_refuses {op : Operation} (hlong : ∀ ttl, op.Lasts ttl → ttl.millis ≠ 0) {cause : BadArgument}
    (h : op.Refuses cause) : (op.action : Action ω (Answer ω)).run = .done (.error (.invalidArgument cause)) := by
  cases h with
  | owner key ttl =>
    have hargs : Lock.checkArguments "" ttl = .error (.invalidArgument .emptyOwner) := by
      rw [Lock.checkArguments, Lock.isZero_of_millis (hlong _ (.acquire ..))]
      rfl
    refine run_return_of_error ?_
    rw [Lock.run_acquire, hargs]
  | @key op key cause hkey hfault =>
    have hcheck := Idempotency.checkKey_eq_error_iff.2 hfault
    cases op with
    | claim limits key =>
      cases hkey
      refine run_return_of_error ?_
      rw [Idempotency.run_check, hcheck]
    | inspect key =>
      cases hkey
      refine run_return_of_error ?_
      rw [Idempotency.run_inspect, hcheck]
    | complete limits key response =>
      cases hkey
      refine run_return_of_error ?_
      rw [Idempotency.run_complete, hcheck]
    | _ => cases hkey

end Services.Operation

namespace Services

def CallOf (rules : SignIn.Rules) : SignIn.Call → Prop
  | .incrementFailures r _ | .markKnownGood r _ | .recordFailure r _ | .recordSuccess r _ _ => r = rules
  | _ => True

/-- An operation with the rules of a deployment, and locks with its lifetime. -/
def Operation.Of (s : Settings) : Operation → Prop
  | .acquire _ _ ttl | .runExclusive _ ttl => ttl = s.lockTtl
  | .count rules _ | .countAt rules _ _ => rules = s.services.rateLimit
  | .claim limits _ | .complete limits _ _ => limits = s.services.idempotency
  | .signIn call => CallOf s.services.signIn call
  | .giveBack _ _ | .inspect _ | .giveUp _ => True

def Operation.CountsFailure : Operation → Prop
  | .signIn (.incrementFailures _ _) | .signIn (.recordFailure _ _) => True
  | _ => False

def Operation.Remembers : Operation → Prop
  | .signIn (.markKnownGood _ _) | .signIn (.recordSuccess _ _ true) => True
  | _ => False

/-- A lifetime of an operation of a deployment: of milliseconds that are set, of a lockout, of a lock that was asked for, of
a streak, or of what is remembered. -/
inductive Term (s : Settings) : Operation → Duration → Prop
  | millis (op : Operation) {n : Nat} (hpos : 0 < n) (hfits : n < Nat.pow 2 64) : Term s op (.ofMillis n)
  | lockout (op : Operation) {n : Nat} (hpos : 0 < n) (hshort : n ≤ 900) : Term s op (.ofSeconds n)
  | lock (subject : SignIn.Subject) {n : Nat} (hpos : 0 < n) : Term s (.signIn (.setLocked subject n)) (.ofSeconds n)
  | streak {op : Operation} (hop : op.CountsFailure) (hpos : 0 < s.throttleFailureTtlSecs) :
    Term s op (.ofSeconds s.throttleFailureTtlSecs)
  | knownGood {op : Operation} (hop : op.Remembers) (hpos : 0 < s.throttleKnownGoodTtlSecs) :
    Term s op (.ofSeconds s.throttleKnownGoodTtlSecs)

section Terms
variable {s : Settings} {op : Operation} {ttl : Duration}

theorem Operation.Of.term (hop : op.Of s) (hs : s.Usable) (h : op.Lasts ttl) : Term s op ttl := by
  have millis : ∀ {n}, 0 < n ∧ n < Nat.pow 2 Settings.u64.bits → Term s op (.ofMillis n) := fun h => .millis op h.1 h.2
  have hstreak : 0 < s.throttleFailureTtlSecs := (hs.bounds "throttle_failure_ttl_secs" rfl rfl rfl).1
  have hknown : 0 < s.throttleKnownGoodTtlSecs := (hs.bounds "throttle_known_good_ttl_secs" rfl rfl rfl).1
  cases h with
  | acquire | runExclusive =>
    obtain rfl := hop
    exact millis (hs.bounds "lock_ttl_ms" rfl rfl rfl)
  | window | windowAt =>
    obtain rfl := hop
    exact millis (hs.bounds "rate_limit_window_ms" rfl rfl rfl)
  | block | blockAt =>
    obtain rfl := hop
    exact millis (hs.bounds "rate_limit_block_duration_ms" rfl rfl rfl)
  | claim =>
    obtain rfl := hop
    exact millis (hs.bounds "idempotency_in_flight_ttl_ms" rfl rfl rfl)
  | complete =>
    obtain rfl := hop
    exact millis (hs.bounds "idempotency_cache_ttl_ms" rfl rfl rfl)
  | signIn h =>
    cases h with
    | lock subject h => exact .lock subject (Nat.pos_of_ne_zero h)
    | count | failure =>
      obtain rfl := hop
      exact .streak trivial hstreak
    | lockout rules subject h => exact .lockout _ (Nat.pos_of_ne_zero h) (rules.policy.lockout_le _)
    | remember | success =>
      obtain rfl := hop
      exact .knownGood trivial hknown

theorem Term.millis_ne (h : Term s op ttl) : ttl.millis ≠ 0 := by
  cases h with
  | millis _ hpos =>
    rw [Duration.millis_ofMillis]
    exact Nat.ne_of_gt hpos
  | lockout _ hpos | lock _ hpos | streak _ hpos | knownGood _ hpos => exact SignIn.millis_ofSeconds_ne (Nat.ne_of_gt hpos)

theorem Operation.Of.lasts (hop : op.Of s) (hs : s.Usable) : ∀ ttl, op.Lasts ttl → ttl.millis ≠ 0 :=
  fun _ h => (hop.term hs h).millis_ne

end Terms

def deployed (s : Settings) (ω : Type) : Traffic { op : Operation // op.Of s } ω (Except Failure (Answer ω)) where
  program op := op.1.action.run
  admits _ _ := true
  works _ := true
  aside _ := true

/-- Where an operation can stand over a store that answers: it writes lifetimes that are long enough, and finds wrong what
it refuses. -/
structure Placed (op : Operation) (rest : Program ω (Except Failure (Answer ω))) : Prop where
  sends : rest.Sends (Store.Request.Bears fun ttl => ttl.millis ≠ 0)
  objects : rest.Objects op.Refuses
  refused : ∀ cause, op.Refuses cause → rest = .done (.error (.invalidArgument cause))

section Placed
variable {s : Settings} {op : Operation}

theorem placed_called (hop : op.Of s) (hs : s.Usable) : Placed op (op.action : Action ω (Answer ω)).run where
  sends := ((op.orderly (hop.lasts hs)).mono (hop.lasts hs)).sends
  objects := (op.orderly (hop.lasts hs)).objects
  refused _ := Operation.run_of_refuses (hop.lasts hs)

theorem Placed.next {p : Pool { op : Operation // op.Of s } ω (Except Failure (Answer ω))} {q : Ask}
    {next : q.Answer ω → Program ω (Except Failure (Answer ω))} (h : Placed op (.ask q next)) {status : Status}
    {a : q.Answer ω} {m : Memory} (hgranted : p.Granted (deployed s ω) q status a m)
    (htoken : ∀ t, (⟨q, a⟩ : Answered ω) = ⟨.token, t⟩ → t ≠ "") : Placed op (next a) where
  sends := h.sends.next a
  objects := by
    cases q with
    | store r =>
      refine h.objects a fun cause hcause => ?_
      obtain ⟨ttl, httl, hshort⟩ := Memory.ttl_of_invalidArgument (hcause ▸ congrArg Prod.fst hgranted.2)
      exact h.sends.1 ttl httl hshort
    | token => exact h.objects a (htoken a rfl)
    | clock => exact h.objects a
    | work => exact h.objects a
  refused cause hcause := nomatch h.refused cause hcause

theorem placed_run (hs : s.Usable) (m : Memory) (start : Instant)
    (moves : List (Move { op : Operation // op.Of s } ω)) :
    let p := (Pool.opened m start).run (deployed s ω) moves
    "" ∉ tokens p.history → p.AllStand fun op rest => Placed op.1 rest := by
  refine Pool.run_induction (P := fun p => "" ∉ tokens p.history → p.AllStand fun op rest => Placed op.1 rest) ?_
    (fun _ => Pool.allStand_opened m start) moves
  intro p p' hp hchange hnamed
  have hnamed' : "" ∉ tokens p.history := by
    intro hmem
    obtain ⟨more, hmore⟩ := hchange.history_append
    rw [hmore, tokens, List.filterMap_append] at hnamed
    exact hnamed (List.mem_append_left _ hmem)
  refine hchange.allStand (hp hnamed') (fun op => placed_called op.2 hs) fun a hgranted hnew hstood => ?_
  refine hstood.next hgranted ?_
  rintro t heq rfl
  cases heq
  refine hnamed ?_
  rw [hnew]
  simp [tokens, Event.token?]

end Placed

/-- With settings that were accepted, every lifetime that an operation brings to the store is a millisecond at least,
whatever it was answered. Over a memory no operation comes to an invalid argument but those that take a lock for no owner or
are given an idempotency key that is empty or too long, and these always do. -/
theorem accepted_settings_keep_lifetimes (environment : List (String × String)) (s : Settings)
    (hs : Settings.ofVariables environment = .ok s) :
    (∀ op : Operation, op.Of s → ∀ log r next, (op.action : Action ω (Answer ω)).run.Leads log (.ask (.store r) next) →
      ∀ ttl, r.ttl? = some ttl → Duration.nanosPerMilli ≤ ttl.nanos) ∧
    ∀ (m : Memory) (start : Instant) (moves : List (Move { op : Operation // op.Of s } ω)),
      let p := (Pool.opened m start).run (deployed s ω) moves
      "" ∉ tokens p.history → ∀ (i : Nat) (task : Task { op : Operation // op.Of s } ω (Except Failure (Answer ω))),
        p.tasks[i]? = some task → ∀ cause,
          task.rest.result? = some (.error (.invalidArgument cause)) ↔ task.op.1.Refuses cause := by
  have husable := Settings.usable_of_ofVariables hs
  constructor
  · intro op hop log r next hleads ttl httl
    have hlong := ((placed_called hop husable).sends.of_leads hleads).1 ttl httl
    simp only [Duration.millis] at hlong
    exact Nat.le_of_not_lt fun hlt => hlong (Nat.div_eq_of_lt hlt)
  · intro m start moves p hnamed i task ht cause
    have hplaced := placed_run husable m start moves hnamed i task ht
    constructor
    · intro hresult
      cases hrest : task.rest with
      | done outcome =>
        rw [hrest] at hresult
        have hobjects := hplaced.objects
        rw [hrest] at hobjects
        exact hobjects cause (Option.some.inj hresult)
      | ask q next =>
        rw [hrest] at hresult
        cases hresult
    · intro hrefuses
      rw [hplaced.refused cause hrefuses]
      rfl

def briefEnvironment : List (String × String) := [("TOLLGATE_REDIS_URL", "redis://localhost"), ("TOLLGATE_LOCK_TTL_MS", "1"),
  ("TOLLGATE_THROTTLE_MAX_DELAY_SECS", "0")]

def briefSettings : Settings := { Settings.standard "redis://localhost" with lockTtlMs := 1, throttleMaxDelaySecs := 0 }

/-- Someone without a name asks for a lock, and a key is claimed. -/
def namelessAttempt : List (Move { op : Operation // op.Of briefSettings } Unit) :=
  [.call ⟨.acquire "lock:a" "" (.ofMillis 1), rfl⟩, .call ⟨.claim briefSettings.services.idempotency "k", rfl⟩,
    .token 1 "t", .clock 1 0, .store 1]

theorem nameless_owner_is_refused :
    let p := (Pool.opened .empty ⟨0⟩).run (deployed briefSettings Unit) namelessAttempt
    Settings.ofVariables briefEnvironment = .ok briefSettings ∧ "" ∉ tokens p.history ∧
      (p.tasks[0]?.map fun task => task.rest.result?) = some (some (.error (.invalidArgument .emptyOwner))) ∧
      (p.tasks[1]?.bind fun task => task.rest.result?.map fun outcome => outcome.isOk) = some true := by
  intro p
  have haccepted : Settings.ofVariables briefEnvironment = .ok briefSettings := by rfl
  have hnamed : "" ∉ tokens p.history := by decide +kernel
  have hrefused := ((accepted_settings_keep_lifetimes briefEnvironment briefSettings haccepted).2 .empty ⟨0⟩ namelessAttempt
    hnamed 0 _ rfl .emptyOwner).2 (.owner "lock:a" (.ofMillis 1))
  exact ⟨haccepted, hnamed, congrArg some hrefused, by decide +kernel⟩

end Services
end Coordination
