import Coordination.RateLimit.Limiter
import Coordination.Proofs.Pool.Requests
import Coordination.Proofs.Store.Counter
import Coordination.Proofs.Turn.Play

/-! # The course of a check

In each dimension a check looks for the marker. If it is there, the check asks how long it will be and is over; else it
counts the request, and past the threshold it writes the marker. No two counters share a key, and no counter has the key
of a marker.
-/
namespace Coordination.RateLimit
open Store (countRequest)

variable {ω : Type}

theorem append_cons_inj {α : Type} {x : α} {as as' bs bs' : List α} (h : as ++ x :: bs = as' ++ x :: bs') (hbs : x ∉ bs)
    (hbs' : x ∉ bs') : as = as' ∧ bs = bs' := by
  rcases List.append_eq_append_iff.1 h with ⟨mid, has, hmid⟩ | ⟨mid, has, hmid⟩
  · cases mid with
    | nil => simp_all
    | cons y mid =>
      rw [(List.cons.inj hmid).2] at hbs
      exact absurd (by simp) hbs
  · cases mid with
    | nil => simp_all
    | cons y mid =>
      rw [(List.cons.inj hmid).2] at hbs'
      exact absurd (by simp) hbs'

theorem colon_not_mem_toString (n : Int) : ':' ∉ (toString n).toList := by
  have hdigits : ∀ k : Nat, ':' ∉ Nat.toDigits 10 k := by
    intro k hmem
    have hdigit : (':').isDigit = true := Nat.isDigit_of_mem_toDigits (by decide) (by decide) hmem
    exact absurd hdigit (by decide)
  cases n with
  | ofNat k =>
    have htext : (toString (Int.ofNat k)).toList = Nat.toDigits 10 k := by simp [toString, Int.repr, Nat.repr]
    rw [htext]
    exact hdigits k
  | negSucc k =>
    have htext : (toString (Int.negSucc k)).toList = '-' :: Nat.toDigits 10 (k + 1) := by
      simp [toString, Int.repr, Nat.repr]
    rw [htext, List.mem_cons, not_or]
    exact ⟨by decide, hdigits (k + 1)⟩

theorem toString_int_inj {m n : Int} (h : toString m = toString n) : m = n := by
  have hparse : ∀ k : Int, k.natAbs ≤ m.natAbs + n.natAbs →
      Text.Integer.parse ⟨-(m.natAbs + n.natAbs : Nat), (m.natAbs + n.natAbs : Nat)⟩ (toString k) = .ok k := by
    intro k hk
    refine Text.Integer.parse_toString (Bounds.contains_iff.2 ?_) (Bounds.contains_iff.2 ?_)
    · constructor <;> dsimp only <;> omega
    · constructor <;> dsimp only <;> omega
  have hm := hparse m (by omega)
  rw [h, hparse n (by omega)] at hm
  exact (Except.ok.inj hm).symm

theorem keyName_append_inj {d d' : Dimension} {rest rest' : List Char}
    (h : d.keyName.toList ++ ':' :: rest = d'.keyName.toList ++ ':' :: rest') : d = d' ∧ rest = rest' := by
  cases d <;> cases d' <;> simp_all [Dimension.keyName]

theorem toList_counterKey (d : Dimension) (value : String) (window : Int) :
    (counterKey d value window).toList =
      "ratelimit:".toList ++ (d.keyName.toList ++ ':' :: value.toList) ++ ':' :: (toString window).toList := by
  simp [counterKey, toString]

theorem counterKey_inj {d d' : Dimension} {value value' : String} {window window' : Int}
    (h : counterKey d value window = counterKey d' value' window') : d = d' ∧ value = value' ∧ window = window' := by
  have hlist := congrArg String.toList h
  rw [toList_counterKey, toList_counterKey] at hlist
  obtain ⟨hfront, hwindow⟩ := append_cons_inj hlist (colon_not_mem_toString window) (colon_not_mem_toString window')
  obtain ⟨hd, hvalue⟩ := keyName_append_inj (List.append_cancel_left hfront)
  exact ⟨hd, String.toList_inj.1 hvalue, toString_int_inj (String.toList_inj.1 hwindow)⟩

theorem toList_blockKey (d : Dimension) (value : String) :
    (blockKey d value).toList = "blocked:".toList ++ (d.keyName.toList ++ ':' :: value.toList) := by
  simp [blockKey, toString]

theorem blockKey_inj {d d' : Dimension} {value value' : String} (h : blockKey d value = blockKey d' value') :
    d = d' ∧ value = value' := by
  have hlist := congrArg String.toList h
  rw [toList_blockKey, toList_blockKey] at hlist
  obtain ⟨hd, hvalue⟩ := keyName_append_inj (List.append_cancel_left hlist)
  exact ⟨hd, String.toList_inj.1 hvalue⟩

theorem blockKey_ne_counterKey (d d' : Dimension) (value value' : String) (window : Int) :
    blockKey d value ≠ counterKey d' value' window := by
  intro h
  have hfirst := congrArg (fun s => s.toList.head?) h
  simp [toList_counterKey, blockKey, toString] at hfirst

section Places
variable (rules : Rules) (d : Dimension) (value : String) (threshold : Nat) (nowMs : Int)

def afterWait : Except Failure (Option Duration) → Program ω (Except Failure (Option Decision))
  | .error failure => .done (.error failure)
  | .ok left => .done (.ok (some (.blocked d (left.getD rules.defaultRetryAfter))))

def afterMark : Except Failure Unit → Program ω (Except Failure (Option Decision))
  | .error failure => .done (.error failure)
  | .ok () => .done (.ok (some (.blocked d rules.blockDuration)))

abbrev markRequest : Store.Request := .set (blockKey d value) (toString nowMs) (some rules.blockDuration)

def afterCount : Except Failure Int → Program ω (Except Failure (Option Decision))
  | .error failure => .done (.error failure)
  | .ok count =>
    if count.toNat ≤ threshold then .done (.ok none)
    else .ask (.store (markRequest rules d value nowMs)) (afterMark rules d)

def afterMarker : Except Failure (Option String) → Program ω (Except Failure (Option Decision))
  | .error failure => .done (.error failure)
  | .ok (some _) => .ask (.store (.ttlRemaining (blockKey d value))) (afterWait rules d)
  | .ok none =>
    .ask (.store (countRequest (counterKey d value (rules.windowAt nowMs)) rules.window))
      (afterCount rules d value threshold nowMs)

def afterDimension (next : Program ω (Except Failure Decision)) :
    Except Failure (Option Decision) → Program ω (Except Failure Decision)
  | .error failure => .done (.error failure)
  | .ok (some decision) => .done (.ok decision)
  | .ok none => next

theorem run_checkDimension : (rules.checkDimension d value threshold nowMs : Action ω (Option Decision)).run =
    .ask (.store (.get (blockKey d value))) (afterMarker rules d value threshold nowMs) := by
  unfold Rules.checkDimension
  refine (Action.run_call_bind ..).trans ?_
  congr
  funext reply
  rcases reply with failure | _ | text
  · rfl
  · refine (Action.run_call_bind ..).trans ?_
    simp only [afterMarker]
    congr
    funext reply
    cases reply with
    | error failure => rfl
    | ok count =>
      simp only [afterCount]
      by_cases hcount : count.toNat ≤ threshold
      · simp only [if_pos hcount]
        rfl
      · simp only [if_neg hcount]
        refine (Action.run_call_bind ..).trans ?_
        congr
        funext reply
        cases reply <;> rfl
  · refine (Action.run_call_bind ..).trans ?_
    simp only [afterMarker]
    congr
    funext reply
    cases reply <;> rfl

theorem run_checkDimensions_cons (context : Context) (rest : List Dimension) :
    (rules.checkDimensions context nowMs (d :: rest) : Action ω Decision).run = match rules.eligible? context d with
      | none => (rules.checkDimensions context nowMs rest).run
      | some (value, threshold) => (rules.checkDimension d value threshold nowMs).run.bind
          (afterDimension (rules.checkDimensions context nowMs rest).run) := by
  rw [Rules.checkDimensions]
  cases rules.eligible? context d with
  | none => rfl
  | some counted =>
    show Program.bind _ _ = Program.bind _ _
    congr
    funext outcome
    rcases outcome with failure | _ | decision <;> rfl

end Places

theorem mark_leaves (rules : Rules) (d d' : Dimension) (value value' : String) (nowMs window : Int) :
    (markRequest rules d value nowMs).leaves (counterKey d' value' window) = true := by
  apply Store.Request.leaves_of_ne
  intro heq
  exact blockKey_ne_counterKey d d' value value' window (Option.some.inj heq)

theorem count_leaves (rules : Rules) (d d' : Dimension) (value value' : String) (window : Int) :
    (countRequest (counterKey d value window) rules.window).leaves (blockKey d' value') = true := by
  apply Store.Request.leaves_of_ne
  intro heq
  exact blockKey_ne_counterKey d' d value' value window (Option.some.inj heq).symm

theorem eligible?_eq_some {rules : Rules} {context : Context} {d : Dimension} {value : String} {threshold : Nat} :
    rules.eligible? context d = some (value, threshold) ↔ context.value d = some value ∧
      rules.thresholds.get? d = some threshold ∧ rules.whitelist.contains d value = false := by
  unfold Rules.eligible?
  simp only [Option.bind_eq_bind, Option.bind_eq_some_iff]
  constructor
  · rintro ⟨v, hv, t, ht, hcounted⟩
    split at hcounted
    · cases hcounted
    · next hlisted =>
      cases hcounted
      exact ⟨hv, ht, Bool.eq_false_iff.2 hlisted⟩
  · rintro ⟨hv, ht, hlisted⟩
    exact ⟨value, hv, threshold, ht, by rw [hlisted]; rfl⟩

section Elsewhere
variable {rules : Rules} {d : Dimension} {value key : String} {threshold : Nat} {nowMs : Int} {context : Context} {t : Turn}
  {m : Store.Memory}

theorem checkDimension_avoids (hmarker : key ≠ blockKey d value)
    (hcounter : key ≠ counterKey d value (rules.windowAt nowMs)) :
    (rules.checkDimension d value threshold nowMs : Action Unit (Option Decision)).run.Avoids key := by
  have hmark : (markRequest rules d value nowMs).leaves key = true :=
    Store.Request.leaves_of_ne fun heq => hmarker (Option.some.inj heq).symm
  have hcount : (countRequest (counterKey d value (rules.windowAt nowMs)) rules.window).leaves key = true :=
    Store.Request.leaves_of_ne fun heq => hcounter (Option.some.inj heq).symm
  have reads : ∀ {r r' : Store.Request}, Ask.store r = .store r' → r.writes = false → r'.leaves key = true := by
    intro r r' heq hr
    cases heq
    exact Store.Request.leaves_of_reads hr
  rw [run_checkDimension]
  refine ⟨fun r hr => reads hr rfl, ?_⟩
  intro reply
  rcases reply with failure | _ | text
  · trivial
  · refine ⟨fun r hr => Ask.store.inj hr ▸ hcount, ?_⟩
    intro reply
    cases reply with
    | error failure => trivial
    | ok count =>
      rw [afterCount]
      split
      · trivial
      · refine ⟨fun r hr => Ask.store.inj hr ▸ hmark, ?_⟩
        intro reply
        cases reply <;> trivial
  · refine ⟨fun r hr => reads hr rfl, ?_⟩
    intro reply
    cases reply <;> trivial

theorem checkDimensions_avoids {ds : List Dimension} (hother : ∀ d ∈ ds, ∀ value, context.value d = some value →
    key ≠ blockKey d value ∧ key ≠ counterKey d value (rules.windowAt nowMs)) :
    (rules.checkDimensions context nowMs ds : Action Unit Decision).run.Avoids key := by
  induction ds with
  | nil => trivial
  | cons d rest ih =>
    obtain ⟨hd, hrest⟩ := List.forall_mem_cons.1 hother
    rw [run_checkDimensions_cons]
    cases helig : rules.eligible? context d with
    | none => exact ih hrest
    | some counted =>
      obtain ⟨value, threshold⟩ := counted
      obtain ⟨hmarker, hcounter⟩ := hd value (eligible?_eq_some.1 helig).1
      refine (checkDimension_avoids hmarker hcounter).bind ?_
      intro outcome
      rcases outcome with failure | _ | decision
      · trivial
      · exact ih hrest
      · trivial

theorem ensures_blocks : t.Ensures (rules.checkDimension d value threshold nowMs).run m fun outcome _ =>
    ∀ decision, outcome = .ok (.ok (some decision)) → ∃ ms, decision = ⟨true, some d, ms⟩ := by
  rw [run_checkDimension]
  refine Turn.ensures_store (fun failure => Turn.ensures_done (by simp)) ?_ (by simp)
  intro reply m₁ _
  rcases reply with failure | _ | text
  · exact Turn.ensures_done (by simp)
  · refine Turn.ensures_store (fun failure => Turn.ensures_done (by simp)) ?_ (by simp)
    intro reply m₂ _
    cases reply with
    | error failure => exact Turn.ensures_done (by simp)
    | ok count =>
      rw [afterCount]
      split
      · exact Turn.ensures_done (by simp)
      · refine Turn.ensures_store (fun failure => Turn.ensures_done (by simp)) ?_ (by simp)
        intro reply m₃ _
        cases reply with
        | error failure => exact Turn.ensures_done (by simp)
        | ok _ => exact Turn.ensures_done (by simp [Decision.blocked])
  · refine Turn.ensures_store (fun failure => Turn.ensures_done (by simp)) ?_ (by simp)
    intro reply m₂ _
    cases reply with
    | error failure => exact Turn.ensures_done (by simp)
    | ok left => exact Turn.ensures_done (by simp [Decision.blocked])

end Elsewhere

/-- The lifetimes of counters and markers are of a millisecond at least and end within the clock. -/
structure Rules.Fit (rules : Rules) (now : Instant) : Prop where
  window : rules.window.millis ≠ 0
  block : rules.blockDuration.millis ≠ 0
  windowEnds : (now.add? rules.window).isSome
  blockEnds : (now.add? rules.blockDuration).isSome

inductive Sent (d : Dimension) (value : String) : Store.Request → Prop
  | look : Sent d value (.get (blockKey d value))
  | wait : Sent d value (.ttlRemaining (blockKey d value))
  | count (window : Int) (ttl : Duration) : Sent d value (countRequest (counterKey d value window) ttl)
  | mark (text : String) (ttl : Duration) : Sent d value (.set (blockKey d value) text (some ttl))

def SentFor (context : Context) (r : Store.Request) : Prop := ∃ d value, context.value d = some value ∧ Sent d value r

section Requests
open Coordination.Action (Strict strict_bind strict_call strict_pure strict_clock)
variable (rules : Rules) (context : Context) (nowMs : Int)

theorem checkDimension_strict (d : Dimension) (value : String) (threshold : Nat) :
    Strict (Sent d value) (rules.checkDimension d value threshold nowMs : Action ω (Option Decision)) := by
  refine strict_bind (strict_call .look) fun found => ?_
  cases found with
  | some text => exact strict_bind (strict_call .wait) fun _ => strict_pure _
  | none =>
    refine strict_bind (strict_call (.count ..)) fun count => ?_
    split
    · exact strict_pure _
    · exact strict_bind (strict_call (.mark ..)) fun _ => strict_pure _

theorem checkDimensions_strict (ds : List Dimension) :
    Strict (SentFor context) (rules.checkDimensions context nowMs ds : Action ω Decision) := by
  induction ds with
  | nil => exact strict_pure _
  | cons d rest ih =>
    rw [Rules.checkDimensions]
    cases helig : rules.eligible? context d with
    | none => exact ih
    | some counted =>
      obtain ⟨value, threshold⟩ := counted
      have hvalue := (eligible?_eq_some.1 helig).1
      refine strict_bind ((checkDimension_strict rules nowMs d value threshold).mono ?_) fun outcome => ?_
      · exact fun r hr => ⟨d, value, hvalue, hr⟩
      · cases outcome with
        | none => exact ih
        | some decision => exact strict_pure _

theorem checkAt_strict : Strict (SentFor context) (rules.checkAt context nowMs : Action ω Decision) :=
  checkDimensions_strict rules context nowMs Dimension.all

theorem check_strict : Strict (SentFor context) (rules.check context : Action ω Decision) :=
  strict_bind strict_clock fun nowMs => checkAt_strict rules context nowMs

end Requests

end Coordination.RateLimit
