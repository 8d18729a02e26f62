import Coordination.Proofs.Idempotency.Course

/-! # One winner at a time

Any callers check, inspect, complete and give up one idempotency key in any order, while others write what they like under
other keys. Whoever acquires the key puts a claim there. The record stays until its time is over, unless a response is
written over it or the claim is given up by its own ticket, and nobody acquires the key while a record is live.
-/
namespace Coordination.Idempotency
open Store (Cell Memory)

inductive Call where
  | check
  | inspect
  | complete (response : CachedResponse)
  | release (ticket : Ticket)
deriving DecidableEq, Repr

inductive Answer where
  | checked (outcome : Except Failure Standing)
  | inspected (outcome : Except Failure (Option Standing))
  | completed (outcome : Except Failure Completion)
  | released (outcome : Except Failure Bool)

def Call.program (limits : Limits) (key : String) : Call → Program Unit Answer
  | .check => Answer.checked <$> (limits.check key).run
  | .inspect => Answer.inspected <$> (Idempotency.inspect key).run
  | .complete response => Answer.completed <$> (limits.complete key response).run
  | .release ticket => Answer.released <$> (Idempotency.release ticket).run

abbrev Event := Coordination.Event Call Unit Answer

def Acquires (e : Event) (ticket : Ticket) : Prop :=
  e.op = .check ∧ e.result = some (.checked (.ok (.acquired ticket)))

def ticket? (e : Event) : Option Ticket :=
  match e.op, e.result with
  | .check, some (.checked (.ok (.acquired ticket))) => some ticket
  | _, _ => none

theorem ticket?_eq_some {e : Event} {ticket : Ticket} : ticket? e = some ticket ↔ Acquires e ticket := by
  constructor
  · intro h
    unfold ticket? at h
    split at h
    · next hop hres =>
      cases h
      exact ⟨hop, hres⟩
    · cases h
  · rintro ⟨hop, hres⟩
    rw [ticket?, hop, hres]

def Stores (e : Event) (response : CachedResponse) : Prop :=
  e.op = .complete response ∧ e.result = some (.completed (.ok .stored))

def Releases (e : Event) (ticket : Ticket) : Prop :=
  e.op = .release ticket ∧ e.result = some (.released (.ok true))

/-- Any callers on one key, who can give up tickets only that were handed out, next to requests that leave the key
alone. -/
def traffic (limits : Limits) (key : String) : Traffic Call Unit Answer where
  program := Call.program limits key
  admits
    | history, .release ticket => history.any fun e => ticket? e = some ticket
    | _, _ => true
  works _ := true
  aside := Store.Request.leaves (storeKey key)

variable {limits : Limits} {key : String} {cells : String → Cell}

theorem traffic_owns : (traffic limits key).Owns (storeKey key) := Traffic.owns_of_leaves fun _ h => h

section Steps
variable {before : List Event} {e : Event}

theorem check_effect (he : e.Fits (traffic limits key) cells before) (hop : e.op = .check) :
    (∃ text t, IsClaim text ∧ e.result = some (.checked (.ok (.acquired ⟨key, text⟩))) ∧
      (held (storeKey key) (cells (storeKey key)) before).live e.time = none ∧
      t.nanos = e.time.nanos + limits.inFlightTtl.nanos ∧
      e.onto (storeKey key) (held (storeKey key) (cells (storeKey key)) before) = some ⟨text, some t⟩) ∨
    (∀ ticket, ¬ Acquires e ticket) ∧
      e.onto (storeKey key) (held (storeKey key) (cells (storeKey key)) before) =
        held (storeKey key) (cells (storeKey key)) before := by
  obtain ⟨q, next, hleads, htells⟩ := he.place
  rw [hop] at hleads
  obtain ⟨next', hplace, rfl⟩ := Program.leads_map_ask hleads
  have hchecking := checking_of_leads hplace
  generalize answersOf e.task before = log at hchecking
  cases hchecking with
  | start hkey =>
    refine .inr ⟨?_, htells.onto_eq (by simp) ..⟩
    obtain ⟨t, _, hres, _⟩ := htells
    rintro ticket ⟨_, hacq⟩
    cases hres.symm.trans hacq
  | drawn t =>
    refine .inr ⟨?_, htells.onto_eq (by simp) ..⟩
    obtain ⟨ms, _, hres, _⟩ := htells
    rintro ticket ⟨_, hacq⟩
    cases hres.symm.trans hacq
  | claiming t ms =>
    rcases htells.setIfAbsent traffic_owns with ⟨u, _, hres, hlive, hu, honto⟩ | ⟨o, _, hres, ho, hsame⟩
    · exact .inl ⟨claimText t ms, u, ⟨t, ms, rfl⟩, hres, hlive, hu, honto⟩
    · refine .inr ⟨?_, hsame⟩
      rintro ticket ⟨_, hacq⟩
      rw [hres] at hacq
      rcases o with crash | failure | _ | _
      · cases hacq
      · cases hacq
      · cases hacq
      · exact ho rfl
  | looking t ms =>
    refine .inr ⟨?_, htells.onto_eq (by simp [Store.Request.writes]) ..⟩
    obtain ⟨o, _, hres, _⟩ := htells
    rintro ticket ⟨_, hacq⟩
    rw [hres] at hacq
    cases o with
    | error crash => cases hacq
    | ok reply => exact seen_ne_acquired reply ticket (Answer.checked.inj (Option.some.inj hacq))

theorem inspect_effect (he : e.Fits (traffic limits key) cells before) (hop : e.op = .inspect) (c : Cell) :
    e.onto (storeKey key) c = c := by
  obtain ⟨q, next, hleads, htells⟩ := he.place
  rw [hop] at hleads
  obtain ⟨next', hplace, rfl⟩ := Program.leads_map_ask hleads
  rw [run_inspect] at hplace
  cases hkey : checkKey key with
  | error failure =>
    rw [hkey] at hplace
    exact absurd hplace Program.leads_done_ask
  | ok _ =>
    rw [hkey] at hplace
    cases Program.leads_single (by rintro (_ | _ | _) <;> exact ⟨_, rfl⟩) hplace
    exact htells.onto_eq (by simp [Store.Request.writes]) ..

theorem complete_effect (he : e.Fits (traffic limits key) cells before) {response : CachedResponse}
    (hop : e.op = .complete response) :
    (∃ t, Stores e response ∧ t.nanos = e.time.nanos + limits.cacheTtl.nanos ∧
      e.onto (storeKey key) (held (storeKey key) (cells (storeKey key)) before) =
        some ⟨responseText response, some t⟩) ∨
    e.onto (storeKey key) (held (storeKey key) (cells (storeKey key)) before) =
      held (storeKey key) (cells (storeKey key)) before := by
  obtain ⟨q, next, hleads, htells⟩ := he.place
  rw [hop] at hleads
  obtain ⟨next', hplace, rfl⟩ := Program.leads_map_ask hleads
  rw [run_complete] at hplace
  cases hkey : checkKey key with
  | error failure =>
    rw [hkey] at hplace
    exact absurd hplace Program.leads_done_ask
  | ok _ =>
    simp only [hkey] at hplace
    split at hplace
    · exact absurd hplace Program.leads_done_ask
    · cases Program.leads_single (by rintro (_ | _) <;> exact ⟨_, rfl⟩) hplace
      rcases htells.set traffic_owns with ⟨t, _, hres, ht, honto⟩ | ⟨_, _, _, _, hsame⟩
      · exact .inl ⟨t, ⟨hop, hres⟩, ht, honto⟩
      · exact .inr hsame

theorem ticket_form (he : e.Fits (traffic limits key) cells before) {ticket : Ticket} (h : Acquires e ticket) :
    ticket.key = key ∧ IsClaim ticket.sentinel := by
  rcases check_effect he h.1 with ⟨text, _, hclaim, hres, _⟩ | ⟨hno, _⟩
  · cases h.2.symm.trans hres
    exact ⟨rfl, hclaim⟩
  · exact absurd h (hno ticket)

theorem handed_out (he : e.Fits (traffic limits key) cells before) {ticket : Ticket} (hop : e.op = .release ticket) :
    ∃ d ∈ before, Acquires d ticket := by
  obtain ⟨early, hearly, hadmits⟩ := he.admitted
  rw [hop] at hadmits
  obtain ⟨d, hd, hticket⟩ := List.any_eq_true.1 hadmits
  exact ⟨d, hearly.subset hd, ticket?_eq_some.1 (of_decide_eq_true hticket)⟩

theorem release_effect (he : e.Fits (traffic limits key) cells before) {ticket : Ticket}
    (hop : e.op = .release ticket) (hkey : ticket.key = key) :
    (∃ entry, Releases e ticket ∧ (held (storeKey key) (cells (storeKey key)) before).live e.time = some entry ∧
      entry.value = ticket.sentinel) ∨
    e.onto (storeKey key) (held (storeKey key) (cells (storeKey key)) before) =
      held (storeKey key) (cells (storeKey key)) before := by
  obtain ⟨q, next, hleads, htells⟩ := he.place
  rw [hop] at hleads
  obtain ⟨next', hplace, rfl⟩ := Program.leads_map_ask hleads
  subst hkey
  cases Program.leads_single (fun a => ⟨a, rfl⟩) hplace
  rcases htells.compareAndDelete traffic_owns with ⟨entry, _, hres, hlive, hvalue, _⟩ | ⟨_, _, _, hsame⟩
  · exact .inl ⟨entry, ⟨hop, hres⟩, hlive, hvalue⟩
  · exact .inr hsame

end Steps

/-- What can happen to a live record: its ticket is given up, a response takes its place, or it stays. Nobody acquires
the key meanwhile. -/
theorem record_step {before after : List Event} {e : Event} (h : Sound (traffic limits key) cells (before ++ e :: after))
    {value : String} {deadline : Instant}
    (hcell : held (storeKey key) (cells (storeKey key)) before = some ⟨value, some deadline⟩)
    (htime : e.time.nanos < deadline.nanos) :
    (∀ ticket, ¬ Acquires e ticket) ∧
      ((∃ ticket, Releases e ticket ∧ ticket.key = key ∧ IsClaim ticket.sentinel ∧ ticket.sentinel = value) ∨
        (∃ response t, Stores e response ∧ t.nanos = e.time.nanos + limits.cacheTtl.nanos ∧
          held (storeKey key) (cells (storeKey key)) (before ++ [e]) = some ⟨responseText response, some t⟩) ∨
        held (storeKey key) (cells (storeKey key)) (before ++ [e]) = some ⟨value, some deadline⟩) := by
  have he := h before e after rfl
  have hlive : (held (storeKey key) (cells (storeKey key)) before).live e.time = some ⟨value, some deadline⟩ := by
    rw [hcell, Cell.live_until, if_pos htime]
  have hother : e.op ≠ .check → ∀ ticket, ¬ Acquires e ticket := fun hne _ hacq => hne hacq.1
  rw [held_concat]
  cases hop : e.op with
  | check =>
    rcases check_effect he hop with ⟨_, _, _, _, hnone, _⟩ | ⟨hno, hsame⟩
    · rw [hlive] at hnone
      cases hnone
    · exact ⟨hno, .inr (.inr (hsame.trans hcell))⟩
  | inspect => exact ⟨hother (by simp [hop]), .inr (.inr ((inspect_effect he hop _).trans hcell))⟩
  | complete response =>
    refine ⟨hother (by simp [hop]), .inr ?_⟩
    rcases complete_effect he hop with ⟨t, hstores, ht, honto⟩ | hsame
    · exact .inl ⟨response, t, hstores, ht, honto⟩
    · exact .inr (hsame.trans hcell)
  | release ticket =>
    refine ⟨hother (by simp [hop]), ?_⟩
    obtain ⟨d, hd, hacquires⟩ := handed_out he hop
    obtain ⟨early, late, rfl⟩ := List.append_of_mem hd
    obtain ⟨hkey, hclaim⟩ := ticket_form (h.of_append early d late rfl) hacquires
    rcases release_effect he hop hkey with ⟨entry, hreleases, hentry, hvalue⟩ | hsame
    · rw [hlive] at hentry
      cases hentry
      exact .inl ⟨ticket, hreleases, hkey, hclaim, hvalue.symm⟩
    · exact .inr (.inr (hsame.trans hcell))

/-- Whoever acquires a key that holds a live record does so after the record's ticket was given up or its time is over,
or after that of a response that took its place. -/
theorem freed_before {rest before after : List Event} {f : Event}
    (h : Sound (traffic limits key) cells (before ++ rest ++ f :: after)) {value : String} {deadline : Instant}
    (hcell : held (storeKey key) (cells (storeKey key)) before = some ⟨value, some deadline⟩) {ticket : Ticket}
    (hf : Acquires f ticket) :
    (∃ r ∈ rest, ∃ ticket, Releases r ticket ∧ ticket.key = key ∧ IsClaim ticket.sentinel ∧
        ticket.sentinel = value) ∨
      deadline.nanos ≤ f.time.nanos ∨
      ∃ c ∈ rest, ∃ response, Stores c response ∧ c.time.nanos + limits.cacheTtl.nanos ≤ f.time.nanos := by
  induction rest generalizing before value deadline with
  | nil =>
    rw [List.append_nil] at h
    by_cases htime : f.time.nanos < deadline.nanos
    · exact absurd hf ((record_step h hcell htime).1 ticket)
    · exact .inr (.inl (Nat.not_lt.1 htime))
  | cons d rest ih =>
    rw [List.append_assoc, List.cons_append] at h
    have hle : d.time.nanos ≤ f.time.nanos := h.time_le.2 f (by simp)
    by_cases htime : d.time.nanos < deadline.nanos
    · obtain ⟨_, hstep⟩ := record_step h hcell htime
      rw [List.append_cons, ← List.append_assoc] at h
      rcases hstep with hreleases | ⟨response, t, hstores, ht, hcell'⟩ | hcell'
      · exact .inl ⟨d, List.mem_cons_self, hreleases⟩
      · -- The record is a response now, which no ticket can give up.
        rcases ih h hcell' with ⟨_, _, _, _, _, hclaim, hvalue⟩ | hover | ⟨c, hc, hstored⟩
        · exact absurd (hvalue ▸ hclaim) (not_isClaim_responseText response)
        · exact .inr (.inr ⟨d, List.mem_cons_self, response, hstores, by omega⟩)
        · exact .inr (.inr ⟨c, List.mem_cons_of_mem d hc, hstored⟩)
      · rcases ih h hcell' with ⟨r, hr, hreleases⟩ | hover | ⟨c, hc, hstored⟩
        · exact .inl ⟨r, List.mem_cons_of_mem d hr, hreleases⟩
        · exact .inr (.inl hover)
        · exact .inr (.inr ⟨c, List.mem_cons_of_mem d hc, hstored⟩)
    · exact .inr (.inl (by omega))

/-- Whatever callers and others do and in whatever order: between two checks that acquire the key, the ticket of the first
was given up, or its claim's time is over at the second, or the time of a response is over that was kept between them. -/
theorem second_winner_after_first (limits : Limits) (key : String) (m : Memory) (now : Instant)
    (moves : List (Move Call Unit)) {before mid after : List Event} {e f : Event} {ticket ticket' : Ticket}
    (hhist : ((Pool.opened m now).run (traffic limits key) moves).history = before ++ e :: mid ++ f :: after)
    (he : Acquires e ticket) (hf : Acquires f ticket') :
    (∃ r ∈ mid, Releases r ticket) ∨
      e.time.nanos + limits.inFlightTtl.nanos ≤ f.time.nanos ∨
      ∃ c ∈ mid, ∃ response, Stores c response ∧ c.time.nanos + limits.cacheTtl.nanos ≤ f.time.nanos := by
  have hsound := (Pool.consistent_found (traffic limits key) m now moves).sound
  rw [hhist, List.append_assoc, List.cons_append] at hsound
  rcases check_effect (hsound before e _ rfl) he.1 with ⟨text, t, _, hres, _, ht, honto⟩ | ⟨hno, _⟩
  · obtain rfl : ticket = ⟨key, text⟩ := by
      cases he.2.symm.trans hres
      rfl
    have hcell := held_concat (storeKey key) (m.entries.find? (storeKey key)) before e
    rw [honto] at hcell
    rw [List.append_cons, ← List.append_assoc] at hsound
    rcases freed_before hsound hcell hf with ⟨r, hr, gone, hreleases, hkey, _, hvalue⟩ | hover | hstored
    · obtain ⟨_, _⟩ := gone
      cases hkey
      cases hvalue
      exact .inl ⟨r, hr, hreleases⟩
    · exact .inr (.inl (by omega))
    · exact .inr (.inr hstored)
  · exact absurd he (hno ticket)

/-- A caller acquires the key and keeps a response for less time than its claim had; another one acquires the key after
that. -/
def shortMemory : List (Move Call Unit) := [
  .call .check, .token 0 "a", .clock 0 0, .store 0, .call (.complete ⟨200, "ok", none⟩), .store 1,
  .advance (.ofMillis 3), .call .check, .token 2 "b", .clock 2 3, .store 2]

theorem second_winner_after_response :
    ∃ before e mid f after ticket ticket',
      ((Pool.opened Memory.empty ⟨0⟩).run (traffic ⟨.ofMillis 9, .ofMillis 2, 99⟩ "k") shortMemory).history =
          before ++ e :: mid ++ f :: after ∧
        Acquires e ticket ∧ Acquires f ticket' ∧
        ((∃ r ∈ mid, Releases r ticket) ∨ e.time.nanos + (Duration.ofMillis 9).nanos ≤ f.time.nanos ∨
          ∃ c ∈ mid, ∃ response, Stores c response ∧ c.time.nanos + (Duration.ofMillis 2).nanos ≤ f.time.nanos) := by
  obtain ⟨a, b, e, c, a', b', f, hhist, he, hf⟩ : ∃ a b e c a' b' f : Event,
      ((Pool.opened Memory.empty ⟨0⟩).run (traffic ⟨.ofMillis 9, .ofMillis 2, 99⟩ "k") shortMemory).history =
          [a, b] ++ e :: [c, a', b'] ++ f :: [] ∧
        Acquires e ⟨"k", claimText "a" 0⟩ ∧ Acquires f ⟨"k", claimText "b" 3⟩ :=
    ⟨_, _, _, _, _, _, _, rfl, ⟨rfl, rfl⟩, ⟨rfl, rfl⟩⟩
  exact ⟨_, e, _, f, _, _, _, hhist, he, hf, second_winner_after_first _ "k" Memory.empty ⟨0⟩ shortMemory hhist he hf⟩

end Coordination.Idempotency
