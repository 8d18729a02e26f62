import Mathlib.Logic.Function.Basic
import Coordination.Proofs.Idempotency.Winner
import Coordination.Proofs.Turn.Play

/-! # Three states

A key is absent, in flight or completed, and the last two end with a deadline. This machine knows nothing of records and
their texts, nor of a store. Calls that come one after the other, for any keys and next to whatever else goes on in the
store, are answered as the machine answers them. No two checks are ever given the same ticket.
-/
namespace Coordination.Idempotency
open Store (Cell Crash Memory)

/-- Where a key stands, and the instant from which on it stands there no more. -/
inductive State where
  | absent
  | inFlight (owner : Ticket) (deadline : Instant)
  | completed (response : CachedResponse) (deadline : Instant)

inductive Operation where
  | check (key : String)
  | inspect (key : String)
  | complete (key : String) (response : CachedResponse)
  | release (ticket : Ticket)

def Operation.program (limits : Limits) : Operation → Program Unit Answer
  | .check key => Answer.checked <$> (limits.check key).run
  | .inspect key => Answer.inspected <$> (Idempotency.inspect key).run
  | .complete key response => Answer.completed <$> (limits.complete key response).run
  | .release ticket => Answer.released <$> (Idempotency.release ticket).run

def keyFault? (key : String) : Option BadArgument :=
  if key = "" then some .emptyKey else if 255 < key.utf8ByteSize then some (.keyTooLong 255) else none

def ticketOf (t : Turn) (key : String) : Ticket := ⟨key, claimText t.token t.wallMs⟩

namespace State

def current (now : Instant) : State → State
  | .absent => .absent
  | .inFlight owner deadline => if now.nanos < deadline.nanos then .inFlight owner deadline else .absent
  | .completed response deadline => if now.nanos < deadline.nanos then .completed response deadline else .absent

def standing? : State → Option Standing
  | .absent => none
  | .inFlight _ _ => some .inFlight
  | .completed response _ => some (.cached response)

end State

abbrev Machine := String → State

namespace Machine

variable (limits : Limits) (s : Machine) (t : Turn)

def check (key : String) : Standing × Machine :=
  match ((s key).current t.now).standing? with
  | some standing => (standing, s)
  | none => (.acquired (ticketOf t key), Function.update s key (.inFlight (ticketOf t key) (t.now.advance limits.inFlightTtl)))

def complete (key : String) (response : CachedResponse) : Completion × Machine :=
  if response.body.utf8ByteSize ≤ limits.maxBodyBytes then
    (.stored, Function.update s key (.completed response (t.now.advance limits.cacheTtl)))
  else (.rejected response.body.utf8ByteSize limits.maxBodyBytes, s)

def release (ticket : Ticket) : Bool × Machine :=
  match (s ticket.key).current t.now with
  | .inFlight owner _ => if owner = ticket then (true, Function.update s ticket.key .absent) else (false, s)
  | _ => (false, s)

def step : Operation → Answer × Machine
  | .check key =>
    match keyFault? key with
    | some cause => (.checked (.error (.invalidArgument cause)), s)
    | none => (.checked (.ok (s.check limits t key).1), (s.check limits t key).2)
  | .inspect key =>
    match keyFault? key with
    | some cause => (.inspected (.error (.invalidArgument cause)), s)
    | none => (.inspected (.ok ((s key).current t.now).standing?), s)
  | .complete key response =>
    match keyFault? key with
    | some cause => (.completed (.error (.invalidArgument cause)), s)
    | none => (.completed (.ok (s.complete limits t key response).1), (s.complete limits t key response).2)
  | .release ticket => (.released (.ok (s.release t ticket).1), (s.release t ticket).2)

end Machine

/-- A call, or a request of somebody else. -/
inductive Step where
  | call (op : Operation)
  | aside (r : Store.Request)

/-- What the calls come to over a store in which no request fails. -/
def outcomes (limits : Limits) (m : Memory) : List (Turn × Step) → List (Except Crash Answer)
  | [] => []
  | (t, .call op) :: rest =>
    let (outcome, m, _) := t.play (op.program limits) m []
    outcome :: outcomes limits m rest
  | (t, .aside r) :: rest => outcomes limits (m.serve t.now r).2 rest

def Machine.answers (limits : Limits) (s : Machine) : List (Turn × Step) → List Answer
  | [] => []
  | (t, .call op) :: rest =>
    let (answer, s) := s.step limits t op
    answer :: Machine.answers limits s rest
  | (_, .aside _) :: rest => Machine.answers limits s rest

/-- Responses have a status of 16 bits, tickets were handed out by some check, and others leave the keys alone. -/
def Step.Fits : Step → Prop
  | .call (.complete _ response) => response.statusCode < 2 ^ 16
  | .call (.release ticket) => IsClaim ticket.sentinel
  | .call _ => True
  | .aside r => ∀ key, r.leaves (storeKey key) = true

structure Limits.Suit (limits : Limits) (t : Turn) : Prop where
  wall : clockBounds.contains t.wallMs = true
  claimEnds : (t.now.add? limits.inFlightTtl).isSome
  responseEnds : (t.now.add? limits.cacheTtl).isSome

structure Limits.Last (limits : Limits) : Prop where
  claims : limits.inFlightTtl.millis ≠ 0
  responses : limits.cacheTtl.millis ≠ 0

def Answer.ticket? : Answer → Option Ticket
  | .checked (.ok (.acquired ticket)) => some ticket
  | _ => none

theorem checkKey_eq (key : String) : checkKey key = match keyFault? key with
    | some cause => .error (.invalidArgument cause)
    | none => .ok () := by
  unfold checkKey keyFault? maxKeyBytes
  by_cases hempty : key = ""
  · subst hempty
    rfl
  · rw [if_neg (by simpa using hempty), if_neg hempty]
    split <;> rfl

namespace State
variable {state : State} {key : String} {now : Instant}

def cell : State → Cell
  | .absent => none
  | .inFlight owner deadline => some ⟨owner.sentinel, some deadline⟩
  | .completed response deadline => some ⟨responseText response, some deadline⟩

/-- The record of the state can be read back. -/
def Fits (key : String) : State → Prop
  | .absent => True
  | .inFlight owner _ =>
    owner.key = key ∧ ∃ token ms, clockBounds.contains ms = true ∧ owner.sentinel = claimText token ms
  | .completed response _ => response.statusCode < 2 ^ 16

theorem live_cell (state : State) (now : Instant) : state.cell.live now = (state.current now).cell := by
  cases state with
  | absent => rfl
  | inFlight owner deadline =>
    rw [cell, Cell.live_until, current]
    split <;> rfl
  | completed response deadline =>
    rw [cell, Cell.live_until, current]
    split <;> rfl

theorem Fits.current (h : state.Fits key) (now : Instant) : (state.current now).Fits key := by
  cases state with
  | absent => trivial
  | inFlight owner deadline =>
    rw [State.current]
    split
    · exact h
    · trivial
  | completed response deadline =>
    rw [State.current]
    split
    · exact h
    · trivial

theorem Fits.read (h : state.Fits key) : state.cell = none ∧ state.standing? = none ∨
    ∃ e standing, state.cell = some e ∧ state.standing? = some standing ∧ standingOf e.value = .ok standing := by
  cases state with
  | absent => exact .inl ⟨rfl, rfl⟩
  | inFlight owner deadline =>
    obtain ⟨_, token, ms, hms, htext⟩ := h
    refine .inr ⟨_, _, rfl, rfl, ?_⟩
    rw [htext, standingOf_claimText hms]
  | completed response deadline => exact .inr ⟨_, _, rfl, rfl, standingOf_responseText h⟩

theorem Fits.owned_iff {ticket : Ticket} (h : state.Fits ticket.key) (hclaim : IsClaim ticket.sentinel) :
    state.cell.map Store.Entry.value = some ticket.sentinel ↔ ∃ deadline, state = .inFlight ticket deadline := by
  constructor
  · intro hvalue
    cases state with
    | absent => cases hvalue
    | inFlight owner deadline =>
      obtain ⟨ownerKey, sentinel⟩ := owner
      obtain ⟨hkey, _⟩ := h
      have hsentinel : sentinel = ticket.sentinel := Option.some.inj hvalue
      dsimp only at hkey
      exact ⟨deadline, by rw [hkey, hsentinel]⟩
    | completed response deadline =>
      have htext : responseText response = ticket.sentinel := Option.some.inj hvalue
      exact absurd (htext ▸ hclaim) (not_isClaim_responseText response)
  · rintro ⟨deadline, rfl⟩
    rfl

end State

/-- The memory keeps the records of the states. -/
def Machine.Mirrors (s : Machine) (m : Memory) (now : Instant) : Prop :=
  ∀ key, m.Shows now (storeKey key) (s key).cell ∧ (s key).Fits key

namespace Machine
variable {limits : Limits} {s : Machine} {m : Memory} {t : Turn} {key : String}

section Requests
variable {now : Instant} {r : Store.Request} {o : Except Crash (Except Failure r.Reply)}

theorem Mirrors.later {later : Instant} (h : s.Mirrors m now) (hle : now.nanos ≤ later.nanos) : s.Mirrors m later :=
  fun key => ⟨(h key).1.later hle, (h key).2⟩

theorem Mirrors.serve (h : s.Mirrors m now) (hr : r.key? = some (storeKey key)) {state : State} (hfits : state.Fits key)
    (hserve : (s key).cell.serve now r = (o, state.cell)) :
    ∃ m', m.serve now r = (o, m') ∧ Mirrors (Function.update s key state) m' now := by
  obtain ⟨m', hm, hshows, hframe⟩ := (h key).1.serve hr hserve
  refine ⟨m', hm, ?_⟩
  intro other
  by_cases hne : other = key
  · subst hne
    rw [Function.update_self]
    exact ⟨hshows, hfits⟩
  · rw [Function.update_of_ne hne]
    have hkey : storeKey other ≠ storeKey key := fun heq => hne (storeKey_inj heq)
    exact ⟨hframe.shows hkey (h other).1, (h other).2⟩

theorem Mirrors.serve_same (h : s.Mirrors m now) (hr : r.key? = some (storeKey key))
    (hserve : (s key).cell.serve now r = (o, (s key).cell)) : ∃ m', m.serve now r = (o, m') ∧ s.Mirrors m' now := by
  obtain ⟨m', hm, hmirrors⟩ := h.serve hr (h key).2 hserve
  rw [Function.update_eq_self] at hmirrors
  exact ⟨m', hm, hmirrors⟩

theorem Mirrors.aside (h : s.Mirrors m now) (hr : ∀ key, r.leaves (storeKey key) = true) :
    s.Mirrors (m.serve now r).2 now :=
  fun key => ⟨(h key).1.kept (hr key) rfl, (h key).2⟩

end Requests

theorem play_check (h : s.Mirrors m t.now) (hlast : limits.Last) (hsuit : limits.Suit t) (hkey : keyFault? key = none) :
    ∃ m', t.play (limits.check key).run m [] = (.ok (.ok (s.check limits t key).1), m', []) ∧
      (s.check limits t key).2.Mirrors m' t.now := by
  have hfits := (h key).2.current t.now
  have hlive := (s key).live_cell t.now
  rw [run_check, checkKey_eq, hkey]
  simp only [Turn.play_token, Turn.play_clock, check]
  rcases hfits.read with ⟨hcell, hstanding⟩ | ⟨e, standing, hcell, hstanding, hread⟩
  · rw [hcell] at hlive
    rw [hstanding]
    have hclaim : (State.inFlight (ticketOf t key) (t.now.advance limits.inFlightTtl)).Fits key :=
      ⟨rfl, t.token, t.wallMs, hsuit.wall, rfl⟩
    obtain ⟨m', hm, hmirrors⟩ := h.serve rfl hclaim
      (Cell.serve_setIfAbsent_of_free hlast.claims hsuit.claimEnds hlive (storeKey key) (claimText t.token t.wallMs))
    refine ⟨m', ?_, hmirrors⟩
    rw [Turn.play_served hm]
    rfl
  · rw [hcell] at hlive
    rw [hstanding]
    obtain ⟨m₁, hm₁, h₁⟩ := h.serve_same rfl
      (Cell.serve_setIfAbsent_of_live hlast.claims hlive (storeKey key) (claimText t.token t.wallMs))
    have hget : (s key).cell.serve t.now (.get (storeKey key)) = (.ok (.ok (some e.value)), (s key).cell) := by
      show ((s key).cell.get t.now) = _
      rw [Cell.get, hlive]
      rfl
    obtain ⟨m₂, hm₂, h₂⟩ := h₁.serve_same rfl hget
    refine ⟨m₂, ?_, h₂⟩
    rw [Turn.play_served hm₁, afterClaim, Turn.play_served hm₂, seen, hread]
    rfl

theorem play_inspect (h : s.Mirrors m t.now) (hkey : keyFault? key = none) :
    ∃ m', t.play (Idempotency.inspect key).run m [] = (.ok (.ok ((s key).current t.now).standing?), m', []) ∧
      s.Mirrors m' t.now := by
  have hfits := (h key).2.current t.now
  have hlive := (s key).live_cell t.now
  rw [run_inspect, checkKey_eq, hkey]
  dsimp only
  have hget : (s key).cell.serve t.now (.get (storeKey key)) =
      (.ok (.ok (((s key).current t.now).cell.map Store.Entry.value)), (s key).cell) := by
    show ((s key).cell.get t.now) = _
    rw [Cell.get, hlive]
  obtain ⟨m', hm, h'⟩ := h.serve_same rfl hget
  refine ⟨m', ?_, h'⟩
  rw [Turn.play_served hm]
  rcases hfits.read with ⟨hcell, hstanding⟩ | ⟨e, standing, hcell, hstanding, hread⟩
  · rw [hcell, hstanding]
    rfl
  · rw [hcell, hstanding]
    simp only [Option.map_some, hread]
    rfl

theorem play_complete (h : s.Mirrors m t.now) (hlast : limits.Last) (hsuit : limits.Suit t) (hkey : keyFault? key = none)
    {response : CachedResponse} (hstatus : response.statusCode < 2 ^ 16) :
    ∃ m', t.play (limits.complete key response).run m [] =
        (.ok (.ok (s.complete limits t key response).1), m', []) ∧
      (s.complete limits t key response).2.Mirrors m' t.now := by
  rw [run_complete, checkKey_eq, hkey, complete]
  dsimp only
  by_cases hsize : response.body.utf8ByteSize ≤ limits.maxBodyBytes
  · rw [if_neg (Nat.not_lt.2 hsize), if_pos hsize]
    have hresponse : (State.completed response (t.now.advance limits.cacheTtl)).Fits key := hstatus
    obtain ⟨m', hm, hmirrors⟩ := h.serve rfl hresponse
      (Cell.serve_set_of_fits hlast.responses hsuit.responseEnds (s key).cell (storeKey key) (responseText response))
    refine ⟨m', ?_, hmirrors⟩
    rw [Turn.play_served hm]
    rfl
  · rw [if_pos (Nat.not_le.1 hsize), if_neg hsize]
    exact ⟨m, rfl, h⟩

theorem play_release (h : s.Mirrors m t.now) {ticket : Ticket} (hclaim : IsClaim ticket.sentinel) :
    ∃ m', t.play (Idempotency.release ticket).run m [] = (.ok (.ok (s.release t ticket).1), m', []) ∧
      (s.release t ticket).2.Mirrors m' t.now := by
  have howned := ((h ticket.key).2.current t.now).owned_iff hclaim
  have hserve := (s ticket.key).cell.serve_compareAndDelete_eq t.now (storeKey ticket.key) ticket.sentinel
  rw [State.live_cell] at hserve
  rw [run_release, release]
  by_cases hmine : ∃ deadline, (s ticket.key).current t.now = .inFlight ticket deadline
  · rw [if_pos (howned.2 hmine)] at hserve
    have hgone : State.absent.Fits ticket.key := trivial
    obtain ⟨m', hm, hmirrors⟩ := h.serve rfl hgone hserve
    obtain ⟨deadline, hstate⟩ := hmine
    rw [hstate]
    dsimp only
    rw [if_pos rfl, Turn.play_served hm]
    exact ⟨m', rfl, hmirrors⟩
  · rw [if_neg fun hvalue => hmine (howned.1 hvalue)] at hserve
    obtain ⟨m', hm, hmirrors⟩ := h.serve_same rfl hserve
    refine ⟨m', ?_⟩
    rw [Turn.play_served hm]
    split
    · next owner deadline hstate =>
      have hother : owner ≠ ticket := by
        rintro rfl
        exact hmine ⟨deadline, hstate⟩
      rw [if_neg hother]
      exact ⟨rfl, hmirrors⟩
    · exact ⟨rfl, hmirrors⟩

/-- A call is answered as the machine answers it, and the memory keeps the records of where that leaves the keys. -/
theorem play_program (h : s.Mirrors m t.now) (hlast : limits.Last) (hsuit : limits.Suit t) {op : Operation}
    (hop : (Step.call op).Fits) :
    ∃ m', t.play (op.program limits) m [] = (.ok (s.step limits t op).1, m', []) ∧
      (s.step limits t op).2.Mirrors m' t.now := by
  cases op with
  | check key =>
    rw [Operation.program, Turn.play_map, step]
    cases hkey : keyFault? key with
    | some cause =>
      rw [run_check, checkKey_eq, hkey]
      exact ⟨m, rfl, h⟩
    | none =>
      obtain ⟨m', hm, hmirrors⟩ := play_check h hlast hsuit hkey
      rw [hm]
      exact ⟨m', rfl, hmirrors⟩
  | inspect key =>
    rw [Operation.program, Turn.play_map, step]
    cases hkey : keyFault? key with
    | some cause =>
      rw [run_inspect, checkKey_eq, hkey]
      exact ⟨m, rfl, h⟩
    | none =>
      obtain ⟨m', hm, hmirrors⟩ := play_inspect h hkey
      rw [hm]
      exact ⟨m', rfl, hmirrors⟩
  | complete key response =>
    rw [Operation.program, Turn.play_map, step]
    cases hkey : keyFault? key with
    | some cause =>
      rw [run_complete, checkKey_eq, hkey]
      exact ⟨m, rfl, h⟩
    | none =>
      obtain ⟨m', hm, hmirrors⟩ := play_complete h hlast hsuit hkey hop
      rw [hm]
      exact ⟨m', rfl, hmirrors⟩
  | release ticket =>
    rw [Operation.program, Turn.play_map, step]
    obtain ⟨m', hm, hmirrors⟩ := play_release h hop
    rw [hm]
    exact ⟨m', rfl, hmirrors⟩

theorem Mirrors.outcomes_eq {now : Instant} {steps : List (Turn × Step)} (h : s.Mirrors m now) (hlast : limits.Last)
    (hfrom : ∀ x ∈ steps, now.nanos ≤ x.1.now.nanos)
    (hsorted : steps.Pairwise fun x y => x.1.now.nanos ≤ y.1.now.nanos)
    (hfits : ∀ x ∈ steps, limits.Suit x.1 ∧ x.2.Fits) :
    outcomes limits m steps = (s.answers limits steps).map .ok := by
  induction steps generalizing m now s with
  | nil => rfl
  | cons x rest ih =>
    obtain ⟨t, action⟩ := x
    obtain ⟨⟨hsuit, hfit⟩, hrest⟩ := List.forall_mem_cons.1 hfits
    obtain ⟨hle, hafter⟩ := List.pairwise_cons.1 hsorted
    have hnow := h.later (hfrom _ List.mem_cons_self)
    cases action with
    | call op =>
      obtain ⟨m', hm, hmirrors⟩ := play_program hnow hlast hsuit hfit
      rw [outcomes, hm, answers, List.map_cons]
      exact congrArg _ (ih hmirrors hle hafter hrest)
    | aside r => exact ih (hnow.aside hfit) hle hafter hrest

theorem standing?_ne_acquired (state : State) (ticket : Ticket) : state.standing? ≠ some (.acquired ticket) := by
  cases state with
  | absent => simp [State.standing?]
  | inFlight owner deadline => simp [State.standing?]
  | completed response deadline => simp [State.standing?]

theorem sentinel_of_step {limits : Limits} {s : Machine} {t : Turn} {op : Operation} {ticket : Ticket}
    (h : (s.step limits t op).1.ticket? = some ticket) : ticket.sentinel = claimText t.token t.wallMs := by
  cases op with
  | check key =>
    simp only [step] at h
    split at h
    · cases h
    · simp only [check] at h
      split at h
      · next standing hstanding =>
        cases standing with
        | acquired other => exact absurd hstanding (standing?_ne_acquired _ other)
        | inFlight => cases h
        | cached response => cases h
      · cases h
        rfl
  | inspect key =>
    simp only [step] at h
    split at h <;> cases h
  | complete key response =>
    simp only [step] at h
    split at h <;> cases h
  | release ticket => cases h

theorem tickets_sublist (limits : Limits) (s : Machine) (steps : List (Turn × Step)) :
    (((s.answers limits steps).filterMap Answer.ticket?).map Ticket.sentinel).Sublist
      (steps.map fun x => claimText x.1.token x.1.wallMs) := by
  induction steps generalizing s with
  | nil => exact .slnil
  | cons x rest ih =>
    obtain ⟨t, action⟩ := x
    cases action with
    | aside r => exact (ih s).cons _
    | call op =>
      have hrest := ih (s.step limits t op).2
      rw [answers, List.filterMap_cons]
      split
      · exact hrest.cons _
      · next ticket hticket =>
        have hsentinel : ticket.sentinel = claimText t.token t.wallMs := sentinel_of_step hticket
        rw [List.map_cons, List.map_cons, hsentinel]
        exact hrest.cons_cons _

end Machine

/-- However the keys are used, every call is answered as the machine answers it from all keys absent on, and no ticket is
handed out twice. -/
theorem answered_as_machine (limits : Limits) (m : Memory) (start : Instant) (steps : List (Turn × Step))
    (hlast : limits.Last) (habsent : ∀ key, m.visible? start (storeKey key) = none)
    (hfrom : ∀ x ∈ steps, start.nanos ≤ x.1.now.nanos)
    (hsorted : steps.Pairwise fun x y => x.1.now.nanos ≤ y.1.now.nanos)
    (hfits : ∀ x ∈ steps, limits.Suit x.1 ∧ x.2.Fits) (htokens : (steps.map fun x => x.1.token).Nodup) :
    outcomes limits m steps = (Machine.answers limits (fun _ => .absent) steps).map .ok ∧
      ((Machine.answers limits (fun _ => .absent) steps).filterMap Answer.ticket?).Nodup := by
  have hstart : Machine.Mirrors (fun _ => .absent) m start := fun key => ⟨Memory.shows_none (habsent key), trivial⟩
  refine ⟨hstart.outcomes_eq hlast hfrom hsorted hfits, ?_⟩
  have hmade : (steps.map fun x => claimText x.1.token x.1.wallMs).Nodup := by
    refine List.pairwise_map.2 ((List.pairwise_map.1 htokens).imp ?_)
    intro x y hne heq
    exact hne (token_eq_of_claimText heq)
  have hsentinels := (Machine.tickets_sublist limits (fun _ => .absent) steps).nodup hmade
  exact List.Pairwise.of_map Ticket.sentinel (fun _ _ hne heq => hne (congrArg _ heq)) hsentinels

/-- A key is claimed, completed, given up too late, and claimed again when the time of the response is over. -/
def lateRelease : List (Turn × Step) := [
  (⟨⟨0⟩, "a", 0⟩, .call (.check "k")), (⟨⟨1000000⟩, "b", 1⟩, .call (.check "k")),
  (⟨⟨2000000⟩, "c", 2⟩, .call (.complete "k" ⟨200, "ok", none⟩)), (⟨⟨2000000⟩, "d", 2⟩, .aside (.delete "k")),
  (⟨⟨3000000⟩, "e", 3⟩, .call (.release ⟨"k", claimText "a" 0⟩)), (⟨⟨7000000⟩, "f", 7⟩, .call (.check "k"))]

theorem late_release_as_machine :
    let limits : Limits := ⟨.ofMillis 9, .ofMillis 5, 99⟩
    limits.Last ∧ (∀ key, Memory.empty.visible? ⟨0⟩ (storeKey key) = none) ∧
      (∀ x ∈ lateRelease, (⟨0⟩ : Instant).nanos ≤ x.1.now.nanos) ∧
      (lateRelease.Pairwise fun x y => x.1.now.nanos ≤ y.1.now.nanos) ∧
      (∀ x ∈ lateRelease, limits.Suit x.1 ∧ x.2.Fits) ∧ (lateRelease.map fun x => x.1.token).Nodup ∧
      outcomes limits .empty lateRelease = [.ok (.checked (.ok (.acquired ⟨"k", claimText "a" 0⟩))),
        .ok (.checked (.ok .inFlight)), .ok (.completed (.ok .stored)), .ok (.released (.ok false)),
        .ok (.checked (.ok (.acquired ⟨"k", claimText "f" 7⟩)))] ∧
      ((Machine.answers limits (fun _ => .absent) lateRelease).filterMap Answer.ticket?).Nodup := by
  intro limits
  have hlast : limits.Last := ⟨by decide, by decide⟩
  have hleaves : ∀ key, (Store.Request.delete "k").leaves (storeKey key) = true := by
    intro key
    apply Store.Request.leaves_of_ne
    intro heq
    have hfirst := congrArg (fun s => s.toList.head?) (Option.some.inj heq)
    simp [storeKey] at hfirst
  have hfits : ∀ x ∈ lateRelease, limits.Suit x.1 ∧ x.2.Fits := by
    have hsuit : ∀ x ∈ lateRelease, limits.Suit x.1 := by
      intro x hx
      constructor
      · revert x
        decide
      · revert x
        decide
      · revert x
        decide
    have hstatus : 200 < 2 ^ 16 := by decide
    have hclaim : IsClaim (claimText "a" 0) := ⟨"a", 0, rfl⟩
    have hform : ∀ x ∈ lateRelease, x.2.Fits := by
      simp only [lateRelease, List.forall_mem_cons]
      exact ⟨trivial, trivial, hstatus, hleaves, hclaim, trivial, by simp⟩
    exact fun x hx => ⟨hsuit x hx, hform x hx⟩
  obtain ⟨hanswers, htickets⟩ := answered_as_machine limits .empty ⟨0⟩ lateRelease hlast (fun _ => rfl)
    (fun _ _ => Nat.zero_le _) (by decide) hfits (by decide)
  exact ⟨hlast, fun _ => rfl, fun _ _ => Nat.zero_le _, by decide, hfits, by decide, hanswers, htickets⟩

end Coordination.Idempotency
