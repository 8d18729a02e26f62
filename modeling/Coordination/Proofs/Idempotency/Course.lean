import Coordination.Idempotency.Coordinator
import Coordination.Proofs.Idempotency.Record
import Coordination.Proofs.Pool.History
import Coordination.Proofs.Pool.Requests

/-! # The course of a check

A check draws a token, reads the clock, tries to write its claim and looks at the record only if there was one already. The
other operations on a key ask the store once at most.
-/
namespace Coordination.Idempotency
open Store (Cell)

variable {ω : Type} {limits : Limits} {key : String}

theorem storeKey_inj {key other : String} (h : storeKey key = storeKey other) : key = other :=
  (String.append_right_inj _).1 h

def claimText (token : String) (ms : Int) : String := (Record.inFlight ⟨token, ms⟩).encode

def IsClaim (text : String) : Prop := ∃ token ms, text = claimText token ms

def responseText (response : CachedResponse) : String := (Record.completed response).encode

/-- A response is not written like a claim: the texts differ where they name the state. -/
theorem not_isClaim_responseText (response : CachedResponse) : ¬ IsClaim (responseText response) := by
  rintro ⟨token, ms, h⟩
  have hclaim : (claimText token ms).toList[10]? = some 'i' := by
    simp only [claimText, Record.encode, Json.Value.render, String.toList_ofList]
    rfl
  have hresponse : (responseText response).toList[10]? = some 'c' := by
    simp only [responseText, Record.encode, Json.Value.render, String.toList_ofList]
    rfl
  rw [h, hclaim] at hresponse
  cases hresponse

theorem token_eq_of_claimText {t t' : String} {ms ms' : Int} (h : claimText t ms = claimText t' ms') : t = t' := by
  have htext : ∀ t ms, (claimText t ms).toList = '\x7b' :: (Json.written ("state", .text "in_flight") ++
      ',' :: (Json.quoted "token" ++ ':' :: (Json.quoted t ++
        (Json.writtenNext [("started_at", .integer ms)] ++ ['\x7d'])))) := by
    intro t ms
    rw [claimText, Record.encode, Json.Value.render, String.toList_ofList, Record.toJson_eq, Json.compact,
      Json.compactMembers_cons]
    simp [Json.written, Json.writtenNext, Record.members, Record.state, Record.State.name, Record.tagging, Claim.members,
      Json.compact, Json.scalar]
  have hlist := congrArg String.toList h
  rw [htext, htext] at hlist
  have hafter := List.append_cancel_left (List.cons.inj hlist).2
  have hquoted := List.append_cancel_left (List.cons.inj hafter).2
  exact (Json.quoted_append_inj (List.cons.inj hquoted).2).1

theorem standingOf_claimText {token : String} {ms : Int} (h : clockBounds.contains ms = true) :
    standingOf (claimText token ms) = .ok .inFlight := by
  have hfits : (Record.inFlight ⟨token, ms⟩).Fits := h
  rw [standingOf, claimText, Record.decode_encode hfits]

theorem standingOf_responseText {response : CachedResponse} (h : response.statusCode < 2 ^ 16) :
    standingOf (responseText response) = .ok (.cached response) := by
  have hfits : (Record.completed response).Fits := h
  rw [standingOf, responseText, Record.decode_encode hfits]

def seen : Except Failure (Option String) → Except Failure Standing
  | .error failure => .error failure
  | .ok none => .ok .inFlight
  | .ok (some text) => standingOf text

/-- No record makes its reader the one who acquired the key. -/
theorem seen_ne_acquired (reply : Except Failure (Option String)) (ticket : Ticket) :
    seen reply ≠ .ok (.acquired ticket) := by
  intro h
  rcases reply with failure | _ | text
  · cases h
  · cases h
  · simp only [seen, standingOf] at h
    split at h <;> cases h

def afterClaim (key text : String) : Except Failure Bool → Program ω (Except Failure Standing)
  | .ok true => .done (.ok (.acquired ⟨key, text⟩))
  | .ok false => .ask (.store (.get (storeKey key))) fun reply => .done (seen reply)
  | .error failure => .done (.error failure)

abbrev claimRequest (limits : Limits) (key text : String) : Store.Request :=
  .setIfAbsent (storeKey key) text limits.inFlightTtl

theorem run_check : (limits.check key : Action ω Standing).run = match checkKey key with
    | .error failure => .done (.error failure)
    | .ok _ => .ask .token fun t => .ask .clock fun ms =>
      .ask (.store (claimRequest limits key (claimText t ms))) (afterClaim key (claimText t ms)) := by
  unfold Limits.check
  rw [Action.run_ofExcept_bind]
  cases checkKey key with
  | error failure => rfl
  | ok _ =>
    simp only [Action.run_token_bind, Action.run_clock_bind]
    congr
    funext t
    congr
    funext ms
    refine (Action.run_call_bind ..).trans ?_
    congr
    funext reply
    rcases reply with failure | _ | _
    · rfl
    · refine (Action.run_call_bind ..).trans ?_
      simp only [afterClaim]
      congr
      funext reply
      rcases reply with failure | _ | text
      · rfl
      · rfl
      · exact Action.run_ofExcept _
    · rfl

theorem run_complete (response : CachedResponse) : (limits.complete key response : Action ω Completion).run =
    match checkKey key with
    | .error failure => .done (.error failure)
    | .ok _ =>
      if limits.maxBodyBytes < response.body.utf8ByteSize then
        .done (.ok (.rejected response.body.utf8ByteSize limits.maxBodyBytes))
      else
        .ask (.store (.set (storeKey key) (responseText response) (some limits.cacheTtl))) fun reply => match reply with
          | .ok _ => .done (.ok .stored)
          | .error failure => .done (.error failure) := by
  unfold Limits.complete
  rw [Action.run_ofExcept_bind]
  cases checkKey key with
  | error failure => rfl
  | ok _ =>
    by_cases hsize : limits.maxBodyBytes < response.body.utf8ByteSize
    · simp only [if_pos hsize]
      rfl
    · simp only [if_neg hsize]
      refine (Action.run_call_bind ..).trans ?_
      congr
      funext reply
      cases reply <;> rfl

theorem run_release (ticket : Ticket) : (Idempotency.release ticket : Action ω Bool).run =
    .ask (.store (.compareAndDelete (storeKey ticket.key) ticket.sentinel)) .done := rfl

theorem run_inspect : (Idempotency.inspect key : Action ω (Option Standing)).run =
    match checkKey key with
    | .error failure => .done (.error failure)
    | .ok _ => .ask (.store (.get (storeKey key))) fun reply => match reply with
      | .error failure => .done (.error failure)
      | .ok none => .done (.ok none)
      | .ok (some text) => .done (some <$> standingOf text) := by
  unfold Idempotency.inspect
  rw [Action.run_ofExcept_bind]
  cases checkKey key with
  | error failure => rfl
  | ok _ =>
    refine (Action.run_call_bind ..).trans ?_
    congr
    funext reply
    rcases reply with failure | _ | text
    · rfl
    · rfl
    · show (some <$> Action.ofExcept (standingOf text) : Action ω (Option Standing)).run = .done (some <$> standingOf text)
      cases standingOf text <;> rfl

/-- The requests for the record of a key. -/
inductive Sent (key : String) : Store.Request → Prop
  | claim (text : String) (ttl : Duration) : Sent key (.setIfAbsent (storeKey key) text ttl)
  | look : Sent key (.get (storeKey key))
  | keep (text : String) (ttl : Duration) : Sent key (.set (storeKey key) text (some ttl))
  | giveUp (text : String) : Sent key (.compareAndDelete (storeKey key) text)

section Requests
open Coordination.Action (Strict strict_bind strict_call strict_pure strict_map strict_token strict_clock strict_ofExcept)
variable (limits key)

theorem check_strict : Strict (Sent key) (limits.check key : Action ω Standing) := by
  refine strict_bind (strict_ofExcept _) fun _ => strict_bind strict_token fun token => strict_bind strict_clock fun ms => ?_
  refine strict_bind (strict_call (.claim ..)) fun isNew => ?_
  cases isNew with
  | true => exact strict_pure _
  | false =>
    refine strict_bind (strict_call .look) fun text? => ?_
    cases text? with
    | none => exact strict_pure _
    | some text => exact strict_ofExcept _

theorem inspect_strict : Strict (Sent key) (Idempotency.inspect key : Action ω (Option Standing)) := by
  refine strict_bind (strict_ofExcept _) fun _ => strict_bind (strict_call .look) fun text? => ?_
  cases text? with
  | none => exact strict_pure _
  | some text => exact strict_map (strict_ofExcept _) _

theorem complete_strict (response : CachedResponse) :
    Strict (Sent key) (limits.complete key response : Action ω Completion) := by
  refine strict_bind (strict_ofExcept _) fun _ => ?_
  dsimp only
  split
  · exact strict_pure _
  · exact strict_bind (strict_call (.keep ..)) fun _ => strict_pure _

theorem release_strict (ticket : Ticket) : Strict (Sent ticket.key) (release ticket : Action ω Bool) :=
  strict_call (.giveUp _)

end Requests

/-- Where a check stands after the answers it got. -/
inductive Checking (limits : Limits) (key : String) :
    List (Answered ω) → Program ω (Except Failure Standing) → Prop
  | refused {failure : Failure} (h : checkKey key = .error failure) : Checking limits key [] (.done (.error failure))
  | start (h : checkKey key = .ok ()) : Checking limits key [] (.ask .token fun t => .ask .clock fun ms =>
      .ask (.store (claimRequest limits key (claimText t ms))) (afterClaim key (claimText t ms)))
  | drawn (t : String) : Checking limits key [⟨.token, t⟩] (.ask .clock fun ms =>
      .ask (.store (claimRequest limits key (claimText t ms))) (afterClaim key (claimText t ms)))
  | claiming (t : String) (ms : Int) : Checking limits key [⟨.token, t⟩, ⟨.clock, ms⟩]
      (.ask (.store (claimRequest limits key (claimText t ms))) (afterClaim key (claimText t ms)))
  | acquired (t : String) (ms : Int) : Checking limits key
      [⟨.token, t⟩, ⟨.clock, ms⟩, ⟨.store (claimRequest limits key (claimText t ms)), .ok true⟩]
      (.done (.ok (.acquired ⟨key, claimText t ms⟩)))
  | looking (t : String) (ms : Int) : Checking limits key
      [⟨.token, t⟩, ⟨.clock, ms⟩, ⟨.store (claimRequest limits key (claimText t ms)), .ok false⟩]
      (.ask (.store (.get (storeKey key))) fun reply => .done (seen reply))
  | failed (t : String) (ms : Int) (failure : Failure) : Checking limits key
      [⟨.token, t⟩, ⟨.clock, ms⟩, ⟨.store (claimRequest limits key (claimText t ms)), .error failure⟩]
      (.done (.error failure))
  | looked (t : String) (ms : Int) (reply : Except Failure (Option String)) : Checking limits key
      [⟨.token, t⟩, ⟨.clock, ms⟩, ⟨.store (claimRequest limits key (claimText t ms)), .ok false⟩,
        ⟨.store (.get (storeKey key)), reply⟩]
      (.done (seen reply))

theorem checking_of_leads {log : List (Answered ω)} {rest : Program ω (Except Failure Standing)}
    (h : (limits.check key).run.Leads log rest) : Checking limits key log rest := by
  induction h with
  | start =>
    rw [run_check]
    cases hkey : checkKey key with
    | error failure => exact .refused hkey
    | ok _ => exact .start hkey
  | next _ a ih =>
    cases ih with
    | start _ => exact .drawn a
    | drawn t => exact .claiming t a
    | claiming t ms =>
      rcases a with failure | _ | _
      · exact .failed t ms failure
      · exact .looking t ms
      · exact .acquired t ms
    | looking t ms => exact .looked t ms a

end Coordination.Idempotency
