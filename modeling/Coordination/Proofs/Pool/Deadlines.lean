import Coordination.Proofs.Pool.History
import Coordination.Proofs.Pool.Requests
import Coordination.Proofs.Store.Stored

/-! # Deadlines

Which event gave the entry of a key its deadline: a write that was answered with success, or a count that found nothing alive.
In a run over an empty memory whose writes all have lifetimes, an entry that is stored, seen or not, has the deadline of the
last such event.
-/
namespace Coordination
open Store (Cell Memory)

variable {ι ω α : Type}

/-- The event gives what is kept under a key its deadline: it writes where nothing lives, or in any case. -/
inductive Sets (key : String) (before : List (Event ι ω α)) (e : Event ι ω α) : Duration → Prop
  | claim {value : String} {ttl : Duration} (h : e.what = .answered (.store (.setIfAbsent key value ttl)) (.ok true)) :
    Sets key before e ttl
  | write {value : String} {ttl : Duration} (h : e.what = .answered (.store (.set key value (some ttl))) (.ok ())) :
    Sets key before e ttl
  | count {amount n : Int} {ttl : Duration}
    (h : e.what = .answered (.store (.increment key amount (some ttl))) (.ok n))
    (hfresh : (held key none before).live e.time = none) : Sets key before e ttl

/-- The event was the last to give what is kept under a key its deadline. -/
def SetsLast (key : String) (history : List (Event ι ω α)) (e : Event ι ω α) (ttl : Duration) : Prop :=
  ∃ before after, history = before ++ e :: after ∧ Sets key before e ttl ∧
    ∀ early d late, after = early ++ d :: late → ∀ ttl', ¬ Sets key (before ++ e :: early) d ttl'

section Deadlines
variable {s : Traffic ι ω α} {cells : String → Cell} {key : String} {before : List (Event ι ω α)} {e : Event ι ω α}
  {ttl : Duration}

theorem Sets.request? (h : Sets key before e ttl) :
    ∃ r, e.what.request? = some r ∧ r.key? = some key ∧ r.ttl? = some ttl := by
  cases h with
  | claim h | write h | count h _ => exact ⟨_, by rw [h]; rfl, rfl, rfl⟩

theorem Sets.setsLast (h : Sets key before e ttl) : SetsLast key (before ++ [e]) e ttl :=
  ⟨before, [], rfl, h, by simp⟩

theorem SetsLast.concat {history : List (Event ι ω α)} {d : Event ι ω α} (h : SetsLast key history e ttl)
    (hd : ∀ ttl', ¬ Sets key history d ttl') : SetsLast key (history ++ [d]) e ttl := by
  obtain ⟨before, after, rfl, hsets, hlast⟩ := h
  refine ⟨before, after ++ [d], by simp, hsets, ?_⟩
  intro early f late heq
  rcases List.eq_nil_or_concat late with rfl | ⟨late, x, rfl⟩
  · obtain ⟨rfl, hf⟩ := List.append_inj' heq rfl
    cases hf
    exact hd
  · rw [List.concat_eq_append, ← List.cons_append, ← List.append_assoc] at heq
    exact hlast early f late (List.append_inj' heq rfl).1

theorem sets_iff_dates {r : Store.Request} {o : Except Store.Crash (Except Failure r.Reply)} (hwhat : e.what = .served r o)
    (hr : r.key? = some key) : Sets key before e ttl ↔ (held key none before).Dates e.time r o ttl := by
  constructor
  · intro hsets
    cases o with
    | error crash => cases hsets with
      | claim h | write h | count h _ => cases hwhat.symm.trans h
    | ok answer => cases hsets with
      | claim h =>
        cases hwhat.symm.trans h
        exact .claim ..
      | write h =>
        cases hwhat.symm.trans h
        exact .write ..
      | count h hfresh =>
        cases hwhat.symm.trans h
        exact .count hfresh ..
  · intro hdates
    cases hdates with
    | claim =>
      cases hr
      exact .claim hwhat
    | write =>
      cases hr
      exact .write hwhat
    | count hfresh =>
      cases hr
      exact .count hwhat hfresh

/-- A request whose writes have a lifetime gives a new deadline or leaves the one there is. -/
theorem Event.Tells.sets_or_keeps {r : Store.Request} {next : (Ask.store r).Answer ω → Program ω α}
    (h : e.Tells s (fun _ => none) before (.store r) next) (hkey : s.Owns key) (hr : r.key? = some key) (hlasting : r.Lasting)
    (hc : ∀ x, held key none before = some x → x.expiresAt.isSome) :
    (∃ ttl value, Sets key before e ttl ∧ e.onto key (held key none before) = some ⟨value, some (e.time.advance ttl)⟩) ∨
    (∀ ttl, ¬ Sets key before e ttl) ∧ (held key none before).KeepsDeadline (e.onto key (held key none before)) := by
  obtain ⟨o, hwhat, _, hserve⟩ := h
  have ho := hserve key hkey hr
  subst ho
  simp only [sets_iff_dates hwhat hr, Event.onto_served hwhat hr]
  exact Cell.dates_or_keeps hc e.time hlasting

theorem Event.onto_of_quiet (h : ∀ r, e.what.request? = some r → r.key? ≠ some key) (c : Cell) : e.onto key c = c := by
  unfold Event.onto
  split
  · next r hr => exact if_neg (h r hr)
  · rfl

/-- A cell of a run whose writes all have lifetimes has the deadline that was given to it last. -/
theorem deadline_of_held {history : List (Event ι ω α)} (h : Sound s (fun _ => none) history) (hkey : s.Owns key)
    (hsends : ∀ op, (s.program op).Sends Store.Request.Lasting) :
    ∀ x, held key none history = some x → ∃ e ttl, SetsLast key history e ttl ∧ x.expiresAt = some (e.time.advance ttl) := by
  refine h.induction (P := fun history => ∀ x, held key none history = some x →
    ∃ e ttl, SetsLast key history e ttl ∧ x.expiresAt = some (e.time.advance ttl)) (fun _ hx => by cases hx) ?_
  intro before e _ he ih x hx
  rw [held_concat] at hx
  have hc : ∀ y, held key none before = some y → y.expiresAt.isSome := by
    intro y hy
    obtain ⟨_, _, _, hdeadline⟩ := ih y hy
    exact hdeadline ▸ rfl
  have keeps : (∀ ttl, ¬ Sets key before e ttl) → (∃ y, held key none before = some y ∧ x.expiresAt = y.expiresAt) →
      ∃ d ttl, SetsLast key (before ++ [e]) d ttl ∧ x.expiresAt = some (d.time.advance ttl) := by
    rintro hno ⟨y, hy, hsame⟩
    obtain ⟨d, ttl, hlast, hdeadline⟩ := ih y hy
    exact ⟨d, ttl, hlast.concat hno, hsame.trans hdeadline⟩
  obtain ⟨q, next, hleads, htells⟩ := he.place
  by_cases hq : ∃ r, q = .store r ∧ r.key? = some key
  · obtain ⟨r, rfl, hr⟩ := hq
    have hlasting : r.Lasting := ((hsends e.op).of_leads hleads).1
    rcases htells.sets_or_keeps hkey hr hlasting hc with ⟨ttl, value, hsets, honto⟩ | ⟨hno, hkept⟩
    · cases honto.symm.trans hx
      exact ⟨e, ttl, hsets.setsLast, rfl⟩
    · exact keeps hno (hkept x hx)
  · have hquiet : ∀ r, e.what.request? = some r → r.key? ≠ some key :=
      fun r hr hk => hq ⟨r, htells.question_eq_store hr, hk⟩
    refine keeps ?_ ⟨x, (Event.onto_of_quiet hquiet _).symm.trans hx, rfl⟩
    intro ttl hsets
    obtain ⟨r, hr, hk, _⟩ := hsets.request?
    exact hquiet r hr hk

end Deadlines

namespace Pool
variable {s : Traffic ι ω α}

/-- Over a memory that was empty, what is stored under a key is what its cell holds. -/
theorem stores_run (hquiet : ∀ r, s.aside r = false) (start : Instant) (moves : List (Move ι ω)) (key : String) :
    ((opened .empty start).run s moves).memory.Stores key (held key none ((opened .empty start).run s moves).history) := by
  have howns : ∀ key, s.Owns key := fun key r hr => absurd hr (by simp [hquiet r])
  refine (run_induction (P := fun p => p.Consistent s (fun _ => none) ∧ ∀ key, p.memory.Stores key (held key none p.history))
    ?_ ⟨Consistent.opened fun _ _ _ => rfl, fun _ _ he => absurd he (by simp [opened, Memory.empty])⟩ moves).2 key
  rintro p p' ⟨hcons, hstores⟩ hchange
  refine ⟨hcons.change hchange, ?_⟩
  -- What an event of this moment does to a cell is what its request does to the memory.
  have hserved : ∀ (e : Event ι ω α) (r : Store.Request), e.what.request? = some r → e.time = p.now →
      ∀ key, (p.memory.serve p.now r).2.Stores key (held key none (p.history ++ [e])) := by
    intro e r hr htime key
    rw [held_concat, Event.onto, hr, htime]
    dsimp only
    split
    · next hk => exact (Memory.serve_within (hcons.shows key (howns key)) (hstores key) hk).own
    · next hk => exact Memory.serve_stores_other (hstores key) hk
  have hsilent : ∀ e : Event ι ω α, e.what.request? = none →
      ∀ key, p.memory.Stores key (held key none (p.history ++ [e])) := by
    intro e hr key
    rw [held_concat, Event.onto_of_request?_eq_none hr]
    exact hstores key
  cases hchange with
  | none => exact hstores
  | call op h => exact hstores
  | advance d => exact hstores
  | aside r h => exact absurd h (by simp [hquiet r])
  | begin ht => exact hsilent _ rfl
  | @crash i op r next c m ht hcrash =>
    have hserve := hserved ⟨i, op, p.now, .crashed r c, none⟩ r rfl rfl
    rwa [hcrash] at hserve
  | @answer i op q next status a m ht hgranted =>
    cases q with
    | store r =>
      have hserve := hserved ⟨i, op, p.now, .answered (.store r) a, (next a).result?⟩ r rfl rfl
      rwa [hgranted.2] at hserve
    | token => exact hgranted.2.2 ▸ hsilent _ rfl
    | clock => exact hgranted.2.2 ▸ hsilent _ rfl
    | work => exact hgranted.2.2 ▸ hsilent _ rfl

end Pool

end Coordination
