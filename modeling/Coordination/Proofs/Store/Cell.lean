import Coordination.Store.Memory

/-! # What one key holds

A request reads and changes the entry under one key only. A cell is that entry with nothing ever dropped from it: an
expired entry stays where it is and is merely not live. The memory answers every request as the cell of its key does,
leaves the same to be seen there from then on, and changes nothing that can be seen under any other key. Dropping
expired entries on access and sweeping them are thus not to be noticed.
-/
namespace Coordination.Store

/-- What was last written under a key and not deleted since, dead or alive. -/
abbrev Cell := Option Entry

def Request.key? : Request → Option String
  | .ping => none
  | .setIfAbsent key .. | .get key | .set key .. | .delete key | .increment key .. | .ttlRemaining key
  | .compareAndDelete key _ => some key

def Request.writes : Request → Bool
  | .ping | .get _ | .ttlRemaining _ => false
  | _ => true

/-- Whether a request certainly leaves a key as it is. -/
def Request.leaves (key : String) (r : Request) : Bool := r.key? != some key || !r.writes

theorem Request.leaves_iff {key : String} {r : Request} :
    r.leaves key = true ↔ r.key? ≠ some key ∨ r.writes = false := by
  simp only [leaves, Bool.or_eq_true, bne_iff_ne, Bool.not_eq_true']

theorem Request.leaves_of_ne {key : String} {r : Request} (h : r.key? ≠ some key) : r.leaves key = true :=
  leaves_iff.2 (.inl h)

theorem Request.leaves_of_reads {key : String} {r : Request} (h : r.writes = false) : r.leaves key = true :=
  leaves_iff.2 (.inr h)

namespace Cell

abbrev Served (α : Type) := Except Crash (Except Failure α) × Cell

def live (c : Cell) (now : Instant) : Option Entry := c.filter fun e => e.isLive now

def setIfAbsent (c : Cell) (now : Instant) (value : String) (ttl : Duration) : Served Bool :=
  match c.live now with
  | some _ => (.ok (.ok false), c)
  | none =>
    match Memory.deadline now (some ttl) with
    | .error crash => (.error crash, c)
    | .ok at? => (.ok (.ok true), some ⟨value, at?⟩)

def get (c : Cell) (now : Instant) : Served (Option String) := (.ok (.ok ((c.live now).map Entry.value)), c)

def set (c : Cell) (now : Instant) (value : String) (ttl : Option Duration) : Served Unit :=
  match Memory.deadline now ttl with
  | .error crash => (.error crash, c)
  | .ok at? => (.ok (.ok ()), some ⟨value, at?⟩)

def delete (c : Cell) (now : Instant) : Served Bool := (.ok (.ok (c.live now).isSome), none)

/-- Adds to a live value, whose deadline stays; a sum without a deadline stays written when none can be set. -/
def raise (c : Cell) (now : Instant) (key : String) (e : Entry) (amount : Int) (ttl : Option Duration) : Served Int :=
  match Memory.sum key e.value amount with
  | .error failure => (.ok (.error failure), c)
  | .ok n =>
    match e.expiresAt with
    | some _ => (.ok (.ok n), some ⟨toString n, e.expiresAt⟩)
    | none =>
      match Memory.deadline now ttl with
      | .error crash => (.error crash, some ⟨toString n, none⟩)
      | .ok at? => (.ok (.ok n), some ⟨toString n, at?⟩)

def increment (c : Cell) (now : Instant) (key : String) (amount : Int) (ttl : Option Duration) : Served Int :=
  match c.live now with
  | some e => c.raise now key e amount ttl
  | none =>
    match Memory.deadline now ttl with
    | .error crash => (.error crash, c)
    | .ok at? => (.ok (.ok amount), some ⟨toString amount, at?⟩)

def ttlRemaining (c : Cell) (now : Instant) : Served (Option Duration) :=
  let left := ((c.live now).bind Entry.expiresAt).map fun deadline => deadline.timeLeft now
  (.ok (.ok (left.filter fun d => !d.isZero)), c)

def compareAndDelete (c : Cell) (now : Instant) (expected : String) : Served Bool :=
  match c.live now with
  | some e => if e.value = expected then (.ok (.ok true), none) else (.ok (.ok false), c)
  | none => (.ok (.ok false), c)

def perform (c : Cell) (now : Instant) : (r : Request) → Served r.Reply
  | .ping => (.ok (.ok ()), c)
  | .setIfAbsent _ value ttl => c.setIfAbsent now value ttl
  | .get _ => c.get now
  | .set _ value ttl => c.set now value ttl
  | .delete _ => c.delete now
  | .increment key amount ttl => c.increment now key amount ttl
  | .ttlRemaining _ => c.ttlRemaining now
  | .compareAndDelete _ expected => c.compareAndDelete now expected

def serve (c : Cell) (now : Instant) (r : Request) : Served r.Reply :=
  match r.checkTtl with
  | .error e => (.ok (.error e), c)
  | .ok () => c.perform now r

theorem serve_eq_perform (c : Cell) (now : Instant) {r : Request} (h : r.checkTtl = .ok ()) :
    c.serve now r = c.perform now r := by
  rw [serve, h]

@[simp] theorem live_none (now : Instant) : live none now = none := rfl

theorem live_some (e : Entry) (now : Instant) : live (some e) now = if e.isLive now then some e else none := by
  cases h : e.isLive now <;> simp [live, Option.filter, h]

theorem live_eq_some {c : Cell} {now : Instant} {e : Entry} (h : c.live now = some e) :
    c = some e ∧ e.isLive now = true := by
  obtain ⟨hc, hl⟩ := Option.filter_eq_some_iff.1 h
  exact ⟨hc, hl⟩

theorem live_until (value : String) (deadline now : Instant) :
    live (some ⟨value, some deadline⟩) now =
      if now.nanos < deadline.nanos then some ⟨value, some deadline⟩ else none := by
  rw [live_some]
  simp only [Entry.isLive, decide_eq_true_eq]

theorem live_eq_none_of_le {c : Cell} {now later : Instant} (h : now.nanos ≤ later.nanos) (hc : c.live now = none) :
    c.live later = none := by
  cases c with
  | none => rfl
  | some e =>
    rw [live_some] at hc ⊢
    cases hl : e.isLive later with
    | false => simp
    | true => simp [Entry.isLive_of_le h hl] at hc

theorem serve_of_not_writes (c : Cell) (now : Instant) {r : Request} (h : r.writes = false) :
    (c.serve now r).2 = c := by
  unfold serve
  split
  · rfl
  · cases r with
    | ping => rfl
    | get key => rfl
    | ttlRemaining key => rfl
    | _ => simp [Request.writes] at h

theorem deadline_some {now : Instant} {ttl : Duration} {at? : Option Instant}
    (h : Memory.deadline now (some ttl) = .ok at?) : ∃ t, at? = some t ∧ t.nanos = now.nanos + ttl.nanos := by
  simp only [Memory.deadline] at h
  split at h
  · next t ht =>
    cases h
    exact ⟨t, rfl, Instant.add?_eq_some ht⟩
  · cases h

theorem deadline_eq_ok {now : Instant} {ttl : Duration} (h : (now.add? ttl).isSome) :
    Memory.deadline now (some ttl) = .ok (some (now.advance ttl)) := by
  simp only [Memory.deadline, Instant.add?_eq_advance h]

theorem serve_setIfAbsent (c : Cell) (now : Instant) (key value : String) (ttl : Duration) :
    (∃ t, c.live now = none ∧ t.nanos = now.nanos + ttl.nanos ∧
      c.serve now (.setIfAbsent key value ttl) = (.ok (.ok true), some ⟨value, some t⟩)) ∨
    (c.serve now (.setIfAbsent key value ttl)).1 ≠ .ok (.ok true) ∧
      (c.serve now (.setIfAbsent key value ttl)).2 = c := by
  unfold serve
  cases hcheck : (Request.setIfAbsent key value ttl).checkTtl with
  | error e => exact .inr ⟨by simp, rfl⟩
  | ok _ =>
    simp only [perform, setIfAbsent]
    cases hlive : c.live now with
    | some e => exact .inr ⟨by simp, rfl⟩
    | none =>
      cases hd : Memory.deadline now (some ttl) with
      | error crash => exact .inr ⟨by simp, rfl⟩
      | ok at? =>
        obtain ⟨t, rfl, ht⟩ := deadline_some hd
        exact .inl ⟨t, rfl, ht, rfl⟩

theorem serve_set (c : Cell) (now : Instant) (key value : String) (ttl : Duration) :
    (∃ t, t.nanos = now.nanos + ttl.nanos ∧
      c.serve now (.set key value (some ttl)) = (.ok (.ok ()), some ⟨value, some t⟩)) ∨
    (c.serve now (.set key value (some ttl))).1 ≠ .ok (.ok ()) ∧
      (c.serve now (.set key value (some ttl))).2 = c := by
  unfold serve
  cases hcheck : (Request.set key value (some ttl)).checkTtl with
  | error e => exact .inr ⟨by simp, rfl⟩
  | ok _ =>
    simp only [perform, set]
    cases hd : Memory.deadline now (some ttl) with
    | error crash => exact .inr ⟨by simp, rfl⟩
    | ok at? =>
      obtain ⟨t, rfl, ht⟩ := deadline_some hd
      exact .inl ⟨t, ht, rfl⟩

theorem serve_ttlRemaining (value : String) (deadline now : Instant) (key : String) :
    (serve (some ⟨value, some deadline⟩) now (.ttlRemaining key)).1 =
      .ok (.ok (if now.nanos < deadline.nanos then some (deadline.timeLeft now) else none)) := by
  have hserve : (serve (some ⟨value, some deadline⟩) now (.ttlRemaining key)).1 =
      (ttlRemaining (some ⟨value, some deadline⟩) now).1 := rfl
  rw [hserve, ttlRemaining, live_until]
  by_cases hlive : now.nanos < deadline.nanos
  · have hleft : (deadline.timeLeft now).isZero = false := by
      simp only [Duration.isZero, Instant.timeLeft, beq_eq_false_iff_ne]
      omega
    simp [hlive, hleft, Option.filter]
  · simp [hlive]

section Lifetimes
variable {now : Instant} {ttl : Duration}

theorem serve_setIfAbsent_of_live (hlong : ttl.millis ≠ 0) {c : Cell} {e : Entry} (hlive : c.live now = some e)
    (key value : String) : c.serve now (.setIfAbsent key value ttl) = (.ok (.ok false), c) := by
  have hcheck : (Request.setIfAbsent key value ttl).checkTtl = .ok () := checkTtl_eq_ok.2 hlong
  simp only [serve, hcheck, perform, setIfAbsent, hlive]

theorem serve_setIfAbsent_of_free (hlong : ttl.millis ≠ 0) (hends : (now.add? ttl).isSome) {c : Cell}
    (hlive : c.live now = none) (key value : String) :
    c.serve now (.setIfAbsent key value ttl) = (.ok (.ok true), some ⟨value, some (now.advance ttl)⟩) := by
  have hcheck : (Request.setIfAbsent key value ttl).checkTtl = .ok () := checkTtl_eq_ok.2 hlong
  simp only [serve, hcheck, perform, setIfAbsent, hlive, deadline_eq_ok hends]

theorem serve_set_of_fits (hlong : ttl.millis ≠ 0) (hends : (now.add? ttl).isSome) (c : Cell) (key value : String) :
    c.serve now (.set key value (some ttl)) = (.ok (.ok ()), some ⟨value, some (now.advance ttl)⟩) := by
  have hcheck : (Request.set key value (some ttl)).checkTtl = .ok () := checkTtl_eq_ok.2 hlong
  simp only [serve, hcheck, perform, set, deadline_eq_ok hends]

theorem serve_set_of_endless (hlong : ttl.millis ≠ 0) (hends : now.add? ttl = none) (c : Cell) (key value : String) :
    c.serve now (.set key value (some ttl)) = (.error .deadlinePastClock, c) := by
  have hcheck : (Request.set key value (some ttl)).checkTtl = .ok () := checkTtl_eq_ok.2 hlong
  simp only [serve, hcheck, perform, set, Memory.deadline, hends]

end Lifetimes

theorem serve_compareAndDelete (c : Cell) (now : Instant) (key expected : String) :
    (∃ e, c.live now = some e ∧ e.value = expected ∧
      c.serve now (.compareAndDelete key expected) = (.ok (.ok true), none)) ∨
    (∀ e, c.live now = some e → e.value ≠ expected) ∧
      c.serve now (.compareAndDelete key expected) = (.ok (.ok false), c) := by
  have hserve : c.serve now (.compareAndDelete key expected) = c.compareAndDelete now expected := rfl
  rw [hserve]
  unfold compareAndDelete
  cases hlive : c.live now with
  | none => exact .inr ⟨by simp, rfl⟩
  | some e =>
    by_cases he : e.value = expected
    · exact .inl ⟨e, rfl, he, if_pos he⟩
    · exact .inr ⟨fun e' h => by cases h; exact he, if_neg he⟩

theorem serve_compareAndDelete_eq (c : Cell) (now : Instant) (key expected : String) :
    c.serve now (.compareAndDelete key expected) =
      if (c.live now).map Entry.value = some expected then (.ok (.ok true), none) else (.ok (.ok false), c) := by
  rcases c.serve_compareAndDelete now key expected with ⟨e, hlive, hvalue, hserve⟩ | ⟨hne, hserve⟩
  · rw [hserve, hlive, Option.map_some, if_pos (congrArg some hvalue)]
  · rw [hserve, if_neg]
    intro hvalue
    obtain ⟨e, hlive, he⟩ := Option.map_eq_some_iff.1 hvalue
    exact hne e hlive he

end Cell

namespace Memory

/-- From `now` on the key shows what its cell holds as long as that lives. -/
def Shows (m : Memory) (now : Instant) (key : String) (c : Cell) : Prop :=
  ∀ later : Instant, now.nanos ≤ later.nanos → m.visible? later key = c.live later

theorem shows_find? (m : Memory) (now : Instant) (key : String) : m.Shows now key (m.entries.find? key) :=
  fun _ _ => rfl

theorem Shows.later {m : Memory} {now later : Instant} {key : String} {c : Cell} (hm : m.Shows now key c)
    (h : now.nanos ≤ later.nanos) : m.Shows later key c :=
  fun t ht => hm t (Nat.le_trans h ht)

theorem shows_none {m : Memory} {now : Instant} {key : String} (h : m.visible? now key = none) :
    m.Shows now key none :=
  fun _ hl => Cell.live_eq_none_of_le (c := m.entries.find? key) hl h

/-- The memory after a request that changes at most what is seen under one key. -/
def SameBut (m m' : Memory) (now : Instant) (key : String) : Prop :=
  ∀ other, other ≠ key → ∀ later : Instant, now.nanos ≤ later.nanos → m'.visible? later other = m.visible? later other

/-- What is served by the memory agrees with what is served by the cell of the key. -/
structure Agrees {α : Type} (m : Memory) (now : Instant) (key : String) (served : Served α) (cell : Cell.Served α) :
    Prop where
  outcome : served.1 = cell.1
  shows : served.2.Shows now key cell.2
  frame : m.SameBut served.2 now key

section Agreement
variable {α : Type} {m m' : Memory} {now : Instant} {key : String} {c : Cell}

theorem SameBut.shows {other : String} {d : Cell} (h : m.SameBut m' now key) (hne : other ≠ key)
    (hd : m.Shows now other d) : m'.Shows now other d :=
  fun later hl => (h other hne later hl).trans (hd later hl)

theorem live_of_shows (h : m.Shows now key c) :
    ∃ m', m.live now key = (c.live now, m') ∧ m'.Shows now key c ∧ m.SameBut m' now key := by
  refine ⟨(m.live now key).2, ?_, ?_, ?_⟩
  · rw [← h now (Nat.le_refl _), ← live_fst]
  · intro later hl
    rw [visible?_live m hl]
    exact h later hl
  · intro other _ later hl
    exact visible?_live m hl key other

theorem agrees_kept (o : Except Crash (Except Failure α)) (hc : m'.Shows now key c) (hs : m.SameBut m' now key) :
    m.Agrees now key (o, m') (o, c) :=
  ⟨rfl, hc, hs⟩

theorem agrees_insert (o : Except Crash (Except Failure α)) (e : Entry) (hs : m.SameBut m' now key) :
    m.Agrees now key (o, m'.insert now key e) (o, some e) := by
  refine ⟨rfl, ?_, ?_⟩
  · intro later hl
    simp only [visible?_insert m' hl, if_true]
    rfl
  · intro other hne later hl
    simp only [visible?_insert m' hl, if_neg hne]
    exact hs other hne later hl

theorem agrees_put (o : Except Crash (Except Failure α)) (e : Entry) (hs : m.SameBut m' now key) :
    m.Agrees now key (o, m'.put key e) (o, some e) := by
  refine ⟨rfl, ?_, ?_⟩
  · intro later _
    simp only [visible?_put, if_true]
    rfl
  · intro other hne later hl
    simp only [visible?_put, if_neg hne]
    exact hs other hne later hl

theorem agrees_erase (o : Except Crash (Except Failure α)) (hs : m.SameBut m' now key) :
    m.Agrees now key (o, m'.erase key) (o, none) := by
  refine ⟨rfl, ?_, ?_⟩
  · intro later _
    simp only [visible?_erase, if_true]
    rfl
  · intro other hne later hl
    simp only [visible?_erase, if_neg hne]
    exact hs other hne later hl

theorem sameBut_refl (m : Memory) (now : Instant) (key : String) : m.SameBut m now key := fun _ _ _ _ => rfl

theorem setIfAbsent_agrees (h : m.Shows now key c) (value : String) (ttl : Duration) :
    m.Agrees now key (m.setIfAbsent now key value ttl) (c.setIfAbsent now value ttl) := by
  obtain ⟨m', hlive, hc, hs⟩ := live_of_shows h
  simp only [setIfAbsent, Cell.setIfAbsent, hlive]
  cases c.live now with
  | some e => exact agrees_kept _ hc hs
  | none =>
    cases deadline now (some ttl) with
    | error crash => exact agrees_kept _ hc hs
    | ok at? => exact agrees_insert _ _ hs

theorem get_agrees (h : m.Shows now key c) : m.Agrees now key (m.get now key) (c.get now) := by
  obtain ⟨m', hlive, hc, hs⟩ := live_of_shows h
  simp only [get, Cell.get, hlive]
  exact agrees_kept _ hc hs

theorem set_agrees (h : m.Shows now key c) (value : String) (ttl : Option Duration) :
    m.Agrees now key (m.set now key value ttl) (c.set now value ttl) := by
  simp only [set, Cell.set]
  cases deadline now ttl with
  | error crash => exact agrees_kept _ h (sameBut_refl m now key)
  | ok at? => exact agrees_insert _ _ (sameBut_refl m now key)

theorem delete_agrees (h : m.Shows now key c) : m.Agrees now key (m.delete now key) (c.delete now) := by
  obtain ⟨m', hlive, _, hs⟩ := live_of_shows h
  simp only [delete, Cell.delete, hlive]
  exact agrees_erase _ hs

theorem raise_agrees (hc : m'.Shows now key c) (hs : m.SameBut m' now key) (e : Entry) (amount : Int)
    (ttl : Option Duration) :
    m.Agrees now key (m'.raise now key e amount ttl) (c.raise now key e amount ttl) := by
  simp only [raise, Cell.raise]
  cases sum key e.value amount with
  | error failure => exact agrees_kept _ hc hs
  | ok n =>
    cases e.expiresAt with
    | some at? => exact agrees_put _ _ hs
    | none =>
      cases deadline now ttl with
      | error crash => exact agrees_put _ _ hs
      | ok at? => exact agrees_put _ _ hs

theorem increment_agrees (h : m.Shows now key c) (amount : Int) (ttl : Option Duration) :
    m.Agrees now key (m.increment now key amount ttl) (c.increment now key amount ttl) := by
  obtain ⟨m', hlive, hc, hs⟩ := live_of_shows h
  simp only [increment, Cell.increment, hlive]
  cases c.live now with
  | some e => exact raise_agrees hc hs e amount ttl
  | none =>
    cases deadline now ttl with
    | error crash => exact agrees_kept _ hc hs
    | ok at? => exact agrees_insert _ _ hs

theorem ttlRemaining_agrees (h : m.Shows now key c) :
    m.Agrees now key (m.ttlRemaining now key) (c.ttlRemaining now) := by
  obtain ⟨m', hlive, hc, hs⟩ := live_of_shows h
  simp only [ttlRemaining, Cell.ttlRemaining, hlive]
  exact agrees_kept _ hc hs

theorem compareAndDelete_agrees (h : m.Shows now key c) (expected : String) :
    m.Agrees now key (m.compareAndDelete now key expected) (c.compareAndDelete now expected) := by
  obtain ⟨m', hlive, hc, hs⟩ := live_of_shows h
  simp only [compareAndDelete, Cell.compareAndDelete, hlive]
  cases c.live now with
  | none => exact agrees_kept _ hc hs
  | some e =>
    by_cases he : e.value = expected
    · simp only [if_pos he]
      exact agrees_erase _ hs
    · simp only [if_neg he]
      exact agrees_kept _ hc hs

/-- The memory serves a request as the cell of its key does. -/
theorem serve_agrees (h : m.Shows now key c) {r : Request} (hr : r.key? = some key) :
    m.Agrees now key (m.serve now r) (c.serve now r) := by
  unfold serve Cell.serve
  cases r.checkTtl with
  | error e => exact agrees_kept _ h (sameBut_refl m now key)
  | ok _ =>
    cases r with
    | ping => cases hr
    | setIfAbsent k value ttl => cases hr; exact setIfAbsent_agrees h value ttl
    | get k => cases hr; exact get_agrees h
    | set k value ttl => cases hr; exact set_agrees h value ttl
    | delete k => cases hr; exact delete_agrees h
    | increment k amount ttl => cases hr; exact increment_agrees h amount ttl
    | ttlRemaining k => cases hr; exact ttlRemaining_agrees h
    | compareAndDelete k expected => cases hr; exact compareAndDelete_agrees h expected

theorem Shows.serve (h : m.Shows now key c) {r : Request} (hr : r.key? = some key)
    {o : Except Crash (Except Failure r.Reply)} {c' : Cell} (hserve : c.serve now r = (o, c')) :
    ∃ m', m.serve now r = (o, m') ∧ m'.Shows now key c' ∧ m.SameBut m' now key := by
  have hagrees := serve_agrees h hr
  rw [hserve] at hagrees
  exact ⟨(m.serve now r).2, Prod.ext hagrees.outcome rfl, hagrees.shows, hagrees.frame⟩

theorem serve_shows_other (h : m.Shows now key c) {r : Request} (hr : r.key? ≠ some key ∨ r.writes = false) :
    (m.serve now r).2.Shows now key c := by
  cases hk : r.key? with
  | none =>
    cases r with
    | ping => exact h
    | _ => cases hk
  | some k =>
    have hagrees := serve_agrees (m.shows_find? now k) hk
    by_cases hne : key = k
    · subst hne
      have hread := hr.resolve_left fun hd => hd hk
      have := (serve_agrees h hk).shows
      rwa [Cell.serve_of_not_writes c now hread] at this
    · exact hagrees.frame.shows hne h

theorem serve_get (m : Memory) (now : Instant) (key : String) :
    (m.serve now (.get key)).1 = .ok (.ok ((m.visible? now key).map Entry.value)) :=
  (serve_agrees (m.shows_find? now key) rfl).outcome

theorem serve_ttlRemaining {e : Entry} (h : m.visible? now key = some e) : (m.serve now (.ttlRemaining key)).1 =
    .ok (.ok (e.expiresAt.map fun deadline => deadline.timeLeft now)) := by
  refine (serve_agrees (m.shows_find? now key) rfl).outcome.trans ?_
  have hlive : Cell.live (m.entries.find? key) now = some e := h
  obtain ⟨_, hruns⟩ := Cell.live_eq_some hlive
  show (Cell.ttlRemaining (m.entries.find? key) now).1 = _
  rw [Cell.ttlRemaining, hlive]
  obtain ⟨value, _ | deadline⟩ := e
  · rfl
  · have hleft : (deadline.timeLeft now).isZero = false := by
      simp only [Entry.isLive, decide_eq_true_eq] at hruns
      simp only [Duration.isZero, Instant.timeLeft, beq_eq_false_iff_ne]
      omega
    simp [hleft, Option.filter]

/-- A value with a lifetime that is long enough is written, unless the clock cannot hold its deadline. -/
theorem set_cases (m : Memory) (now : Instant) (key value : String) {ttl : Duration} (hlong : ttl.millis ≠ 0) :
    ∃ m', m.SameBut m' now key ∧
      (m.serve now (.set key value (some ttl)) = (.error .deadlinePastClock, m') ∧ now.add? ttl = none ∧
          (∀ c, m.Shows now key c → m'.Shows now key c) ∨
        m.serve now (.set key value (some ttl)) = (.ok (.ok ()), m') ∧ (now.add? ttl).isSome ∧
          m'.Shows now key (some ⟨value, some (now.advance ttl)⟩)) := by
  have hserve : ∀ {c o c'}, m.Shows now key c → c.serve now (.set key value (some ttl)) = (o, c') →
      ∃ m', m.serve now (.set key value (some ttl)) = (o, m') ∧ m'.Shows now key c' ∧ m.SameBut m' now key :=
    fun hc h => hc.serve rfl h
  cases hends : now.add? ttl with
  | none =>
    obtain ⟨m', hm, _, hframe⟩ := hserve (m.shows_find? now key) (Cell.serve_set_of_endless hlong hends ..)
    refine ⟨m', hframe, .inl ⟨hm, rfl, fun c hc => ?_⟩⟩
    obtain ⟨m'', hm', hshows, _⟩ := hserve hc (Cell.serve_set_of_endless hlong hends ..)
    cases hm.symm.trans hm'
    exact hshows
  | some t =>
    obtain ⟨m', hm, hshows, hframe⟩ := hserve (m.shows_find? now key) (Cell.serve_set_of_fits hlong (hends ▸ rfl) ..)
    exact ⟨m', hframe, .inr ⟨hm, rfl, hshows⟩⟩

theorem compareAndDelete_cases (m : Memory) (now : Instant) (key expected : String) :
    ∃ m', m.SameBut m' now key ∧
      (m.serve now (.compareAndDelete key expected) = (.ok (.ok true), m') ∧
          (m.visible? now key).map Entry.value = some expected ∧ m'.Shows now key none ∨
        m.serve now (.compareAndDelete key expected) = (.ok (.ok false), m') ∧
          (m.visible? now key).map Entry.value ≠ some expected ∧ ∀ c, m.Shows now key c → m'.Shows now key c) := by
  have hserve : ∀ {c o c'}, m.Shows now key c → c.serve now (.compareAndDelete key expected) = (o, c') →
      ∃ m', m.serve now (.compareAndDelete key expected) = (o, m') ∧ m'.Shows now key c' ∧ m.SameBut m' now key :=
    fun hc h => hc.serve rfl h
  have hcell : ∀ {c : Cell}, m.Shows now key c → c.serve now (.compareAndDelete key expected) =
      if (m.visible? now key).map Entry.value = some expected then (.ok (.ok true), none) else (.ok (.ok false), c) := by
    intro c hc
    rw [hc now (Nat.le_refl _)]
    exact c.serve_compareAndDelete_eq now key expected
  by_cases hseen : (m.visible? now key).map Entry.value = some expected
  · obtain ⟨m', hm, hshows, hframe⟩ := hserve (m.shows_find? now key) ((hcell (m.shows_find? now key)).trans (if_pos hseen))
    exact ⟨m', hframe, .inl ⟨hm, hseen, hshows⟩⟩
  · obtain ⟨m', hm, _, hframe⟩ := hserve (m.shows_find? now key) ((hcell (m.shows_find? now key)).trans (if_neg hseen))
    refine ⟨m', hframe, .inr ⟨hm, hseen, fun c hc => ?_⟩⟩
    obtain ⟨m'', hm', hshows, _⟩ := hserve hc ((hcell hc).trans (if_neg hseen))
    cases hm.symm.trans hm'
    exact hshows

theorem visible?_serve (m : Memory) {now later : Instant} (h : now.nanos ≤ later.nanos) {r : Request} (hr : r.writes = false)
    (key : String) : (m.serve now r).2.visible? later key = m.visible? later key :=
  serve_shows_other (m.shows_find? now key) (.inr hr) later h

theorem Shows.kept (h : m.Shows now key c) {r : Request} (hr : r.leaves key = true)
    {o : Except Crash (Except Failure r.Reply)} (hserve : m.serve now r = (o, m')) : m'.Shows now key c := by
  have hshows := serve_shows_other h (Request.leaves_iff.1 hr)
  rwa [hserve] at hshows

end Agreement

/-- The memory after certain entries were written that all live, and nothing else was changed that can be seen. -/
structure Wrote (m m' : Memory) (now : Instant) (written : String → Entry → Prop) : Prop where
  seen : ∀ key e, written key e → m'.visible? now key = some e
  frame : ∀ key, (∀ e, ¬ written key e) →
    ∀ later : Instant, now.nanos ≤ later.nanos → m'.visible? later key = m.visible? later key

namespace Wrote
variable {m m' m'' : Memory} {now : Instant} {written written' : String → Entry → Prop}

theorem congr (h : m.Wrote m' now written) (hiff : ∀ key e, written key e ↔ written' key e) : m.Wrote m' now written' where
  seen key e hw := h.seen key e ((hiff key e).2 hw)
  frame key hnot := h.frame key fun e hw => hnot e ((hiff key e).1 hw)

theorem nothing (h : ∀ key, ∀ later : Instant, now.nanos ≤ later.nanos → m'.visible? later key = m.visible? later key) :
    m.Wrote m' now fun _ _ => False :=
  ⟨fun _ _ hw => hw.elim, fun key _ => h key⟩

theorem single {key : String} {e : Entry} (hseen : m'.visible? now key = some e) (hframe : m.SameBut m' now key) :
    m.Wrote m' now fun key' e' => key' = key ∧ e' = e where
  seen := by
    rintro _ _ ⟨rfl, rfl⟩
    exact hseen
  frame := by
    intro other hnot
    exact hframe other fun heq => hnot e ⟨heq, rfl⟩

theorem trans (h : m.Wrote m' now written) (h' : m'.Wrote m'' now written')
    (hapart : ∀ key e e', written key e → ¬ written' key e') :
    m.Wrote m'' now fun key e => written key e ∨ written' key e where
  seen := by
    rintro key e (hw | hw)
    · exact (h'.frame key (fun e' => hapart key e e' hw) now (Nat.le_refl _)).trans (h.seen key e hw)
    · exact h'.seen key e hw
  frame := by
    intro key hnot later hl
    rw [h'.frame key (fun e hw => hnot e (.inr hw)) later hl]
    exact h.frame key (fun e hw => hnot e (.inl hw)) later hl

end Wrote

end Memory

end Coordination.Store
