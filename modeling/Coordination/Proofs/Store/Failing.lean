import Coordination.Proofs.Store.Cell

/-! # Requests that fail

A request that fails or crashes leaves all that can be seen as it was, with one exception. The increment of a live value
without a deadline writes the sum before it works out the new deadline, and when that lies past the end of the clock the sum
stays, still without a deadline.
-/
namespace Coordination.Store

def Fails {α : Type} (outcome : Except Crash (Except Failure α)) : Prop := ∀ a, outcome ≠ .ok (.ok a)

theorem not_fails_ok {α : Type} (a : α) : ¬ Fails (.ok (.ok a)) := fun h => h a rfl

/-- The request adds to a live value that has no deadline and brings a lifetime that ends past the clock; the sum is what is
written. -/
inductive Cell.Overruns (c : Cell) (now : Instant) : Request → Entry → Prop
  | increment {key : String} {amount n : Int} {ttl : Duration} {e : Entry} (hlive : c.live now = some e)
    (hendless : e.expiresAt = none) (hsum : Memory.sum key e.value amount = .ok n) (hlong : ttl.millis ≠ 0)
    (hpast : now.add? ttl = none) : Overruns c now (.increment key amount (some ttl)) ⟨toString n, none⟩

namespace Cell
variable {c : Cell} {now : Instant}

theorem Overruns.serve {r : Request} {e : Entry} (h : c.Overruns now r e) :
    c.serve now r = (.error .deadlinePastClock, some e) := by
  cases h with
  | @increment key amount n ttl e hlive hendless hsum hlong hpast =>
    have hcheck : (Request.increment key amount (some ttl)).checkTtl = .ok () := checkTtl_eq_ok.2 hlong
    simp only [serve_eq_perform c now hcheck, perform, Cell.increment, hlive, raise, hsum, hendless, Memory.deadline, hpast]

theorem deadline_eq_error {ttl : Option Duration} {crash : Crash} (h : Memory.deadline now ttl = .error crash) :
    ∃ d, ttl = some d ∧ now.add? d = none := by
  cases ttl with
  | none => cases h
  | some d =>
    simp only [Memory.deadline] at h
    split at h
    · cases h
    · next hpast => exact ⟨d, rfl, hpast⟩

/-- A sum is written and then fails only for want of a deadline. -/
theorem increment_fails {key : String} {amount : Int} {ttl : Option Duration}
    (hcheck : (Request.increment key amount ttl).checkTtl = .ok ()) (h : Fails (c.increment now key amount ttl).1) :
    (c.increment now key amount ttl).2 = c ∨ ∃ e, c.Overruns now (.increment key amount ttl) e := by
  cases hlive : c.live now with
  | none =>
    simp only [increment, hlive] at h ⊢
    cases hdeadline : Memory.deadline now ttl with
    | error crash => exact .inl rfl
    | ok at? =>
      rw [hdeadline] at h
      exact absurd h (not_fails_ok amount)
  | some e =>
    simp only [increment, hlive, raise] at h ⊢
    cases hsum : Memory.sum key e.value amount with
    | error failure => exact .inl rfl
    | ok n =>
      rw [hsum] at h
      cases hendless : e.expiresAt with
      | some t =>
        rw [hendless] at h
        exact absurd h (not_fails_ok n)
      | none =>
        rw [hendless] at h
        cases hdeadline : Memory.deadline now ttl with
        | ok at? =>
          simp only [hdeadline] at h
          exact absurd h (not_fails_ok n)
        | error crash =>
          obtain ⟨d, rfl, hpast⟩ := deadline_eq_error hdeadline
          exact .inr ⟨_, .increment hlive hendless hsum (checkTtl_eq_ok.1 hcheck) hpast⟩

theorem serve_fails {r : Request} (h : Fails (c.serve now r).1) : (c.serve now r).2 = c ∨ ∃ e, c.Overruns now r e := by
  cases hcheck : r.checkTtl with
  | error failure => exact .inl (by simp only [serve, hcheck])
  | ok _ =>
    rw [serve_eq_perform c now hcheck] at h ⊢
    cases r with
    | increment key amount ttl => exact increment_fails hcheck h
    | delete key => exact absurd h (not_fails_ok _)
    | ping | get | ttlRemaining => exact .inl rfl
    | set key value ttl =>
      simp only [perform, set] at h ⊢
      cases hdeadline : Memory.deadline now ttl with
      | error crash => exact .inl rfl
      | ok at? =>
        rw [hdeadline] at h
        exact absurd h (not_fails_ok ())
    | setIfAbsent key value ttl =>
      simp only [perform, setIfAbsent] at h ⊢
      cases hlive : c.live now with
      | some e => exact .inl rfl
      | none =>
        rw [hlive] at h
        cases hdeadline : Memory.deadline now (some ttl) with
        | error crash => exact .inl rfl
        | ok at? =>
          simp only [hdeadline] at h
          exact absurd h (not_fails_ok true)
    | compareAndDelete key expected =>
      simp only [perform, compareAndDelete] at h ⊢
      cases hlive : c.live now with
      | none => exact .inl rfl
      | some e =>
        simp only [hlive] at h ⊢
        split at h
        · exact absurd h (not_fails_ok true)
        · exact absurd h (not_fails_ok false)

/-- How a request comes out whose lifetime is long enough: it is answered, its sum cannot be made, or its lifetime ends past
the clock. -/
inductive Outcome (now : Instant) (r : Request) : Except Crash (Except Failure r.Reply) → Prop
  | answered (reply : r.Reply) : Outcome now r (.ok (.ok reply))
  | unsummed (cause : Surprise) : Outcome now r (.ok (.error (.internal cause)))
  | past {ttl : Duration} (httl : r.ttl? = some ttl) (hpast : now.add? ttl = none) :
    Outcome now r (.error .deadlinePastClock)

theorem Outcome.of_deadline {r : Request} {ttl : Option Duration} {crash : Crash} (hr : r.ttl? = ttl)
    (h : Memory.deadline now ttl = .error crash) : Outcome now r (.error crash) := by
  obtain ⟨d, rfl, hpast⟩ := deadline_eq_error h
  exact .past hr hpast

theorem sum_eq_error {key value : String} {amount : Int} {failure : Failure} (h : Memory.sum key value amount = .error failure) :
    ∃ cause, failure = .internal cause := by
  unfold Memory.sum at h
  split at h
  · cases h
    exact ⟨_, rfl⟩
  · split at h
    · cases h
    · cases h
      exact ⟨_, rfl⟩

theorem perform_outcome (c : Cell) (now : Instant) (r : Request) : Outcome now r (c.perform now r).1 := by
  cases r with
  | ping | get | delete | ttlRemaining => exact .answered _
  | compareAndDelete key expected =>
    simp only [perform, compareAndDelete]
    cases c.live now with
    | none => exact .answered (r := .compareAndDelete key expected) false
    | some e =>
      dsimp only
      split
      · exact .answered (r := .compareAndDelete key expected) true
      · exact .answered (r := .compareAndDelete key expected) false
  | set key value ttl =>
    simp only [perform, set]
    cases hdeadline : Memory.deadline now ttl with
    | error crash => exact .of_deadline rfl hdeadline
    | ok at? => exact .answered (r := .set key value ttl) ()
  | setIfAbsent key value ttl =>
    simp only [perform, setIfAbsent]
    cases c.live now with
    | some e => exact .answered (r := .setIfAbsent key value ttl) false
    | none =>
      cases hdeadline : Memory.deadline now (some ttl) with
      | error crash => exact .of_deadline rfl hdeadline
      | ok at? => exact .answered (r := .setIfAbsent key value ttl) true
  | increment key amount ttl =>
    simp only [perform, increment]
    cases c.live now with
    | none =>
      cases hdeadline : Memory.deadline now ttl with
      | error crash => exact .of_deadline rfl hdeadline
      | ok at? => exact .answered (r := .increment key amount ttl) amount
    | some e =>
      simp only [raise]
      cases hsum : Memory.sum key e.value amount with
      | error failure =>
        obtain ⟨cause, rfl⟩ := sum_eq_error hsum
        exact .unsummed cause
      | ok n =>
        cases e.expiresAt with
        | some t => exact .answered (r := .increment key amount ttl) n
        | none =>
          cases hdeadline : Memory.deadline now ttl with
          | error crash => exact .of_deadline rfl hdeadline
          | ok at? => exact .answered (r := .increment key amount ttl) n

/-- A crash comes of a lifetime that ends past the clock. -/
theorem ttl_of_crash {r : Request} {crash : Crash} (h : (c.serve now r).1 = .error crash) :
    ∃ ttl, r.ttl? = some ttl ∧ now.add? ttl = none := by
  cases hcheck : r.checkTtl with
  | error failure =>
    simp only [serve, hcheck] at h
    cases h
  | ok _ =>
    rw [serve_eq_perform c now hcheck] at h
    cases h ▸ c.perform_outcome now r with
    | past httl hpast => exact ⟨_, httl, hpast⟩

/-- The store finds an argument wrong only where a lifetime is shorter than a millisecond. -/
theorem ttl_of_invalidArgument {r : Request} {cause : BadArgument}
    (h : (c.serve now r).1 = .ok (.error (.invalidArgument cause))) : ∃ ttl, r.ttl? = some ttl ∧ ttl.millis = 0 := by
  cases hcheck : r.checkTtl with
  | ok _ =>
    rw [serve_eq_perform c now hcheck] at h
    cases h ▸ c.perform_outcome now r
  | error failure =>
    unfold Request.checkTtl at hcheck
    split at hcheck
    · next ttl httl =>
      refine ⟨ttl, httl, Decidable.byContradiction fun hlong => ?_⟩
      rw [checkTtl_eq_ok.2 hlong] at hcheck
      cases hcheck
    · cases hcheck

end Cell

namespace Memory

/-- From `now` on the same is seen under every key, with the same deadline. -/
def Unchanged (m m' : Memory) (now : Instant) : Prop :=
  ∀ key, ∀ later : Instant, now.nanos ≤ later.nanos → m'.visible? later key = m.visible? later key

theorem ttl_of_crash {m : Memory} {now : Instant} {r : Request} {crash : Crash} (h : (m.serve now r).1 = .error crash) :
    ∃ ttl, r.ttl? = some ttl ∧ now.add? ttl = none := by
  cases hkey : r.key? with
  | none =>
    cases r with
    | ping => cases h
    | _ => cases hkey
  | some key => exact Cell.ttl_of_crash ((serve_agrees (m.shows_find? now key) hkey).outcome.symm.trans h)

theorem ttl_of_invalidArgument {m : Memory} {now : Instant} {r : Request} {cause : BadArgument}
    (h : (m.serve now r).1 = .ok (.error (.invalidArgument cause))) : ∃ ttl, r.ttl? = some ttl ∧ ttl.millis = 0 := by
  cases hkey : r.key? with
  | none =>
    cases r with
    | ping => cases h
    | _ => cases hkey
  | some key => exact Cell.ttl_of_invalidArgument ((serve_agrees (m.shows_find? now key) hkey).outcome.symm.trans h)

theorem SameBut.unchanged {m m' : Memory} {now : Instant} {key : String} (h : m.SameBut m' now key)
    (hkey : m'.Shows now key (m.entries.find? key)) : m.Unchanged m' now := by
  intro other later hl
  by_cases hother : other = key
  · exact hother ▸ hkey later hl
  · exact h other hother later hl

/-- The request adds to a value without a deadline that is seen under a key, and brings a lifetime that ends past the clock. -/
def Overruns (m : Memory) (now : Instant) (r : Request) (key : String) (e : Entry) : Prop :=
  r.key? = some key ∧ Cell.Overruns (m.entries.find? key) now r e

/-- A request that has failed or crashed has changed nothing, now or at any later time, unless it is an increment that brings
a lifetime past the clock to a value without a deadline. That one always crashes, and has written the sum. -/
theorem failed_request_leaves (m : Memory) (now : Instant) (r : Request) (hfails : Fails (m.serve now r).1) :
    ((∀ key e, ¬ m.Overruns now r key e) → m.Unchanged (m.serve now r).2 now) ∧
      ∀ key e, m.Overruns now r key e → (m.serve now r).1 = .error .deadlinePastClock ∧
        (m.serve now r).2.Shows now key (some e) ∧ m.SameBut (m.serve now r).2 now key := by
  constructor
  · intro hnot
    cases hkey : r.key? with
    | none =>
      cases r with
      | ping => exact fun _ _ _ => rfl
      | _ => cases hkey
    | some key =>
      have hagrees := serve_agrees (m.shows_find? now key) hkey
      have hkept : (Cell.serve (m.entries.find? key) now r).2 = m.entries.find? key := by
        rcases Cell.serve_fails (hagrees.outcome ▸ hfails) with hkept | ⟨e, hoverruns⟩
        · exact hkept
        · exact absurd ⟨hkey, hoverruns⟩ (hnot key e)
      exact hagrees.frame.unchanged (hkept ▸ hagrees.shows)
  · rintro key e ⟨hkey, hoverruns⟩
    have hagrees := serve_agrees (m.shows_find? now key) hkey
    rw [hoverruns.serve] at hagrees
    exact ⟨hagrees.outcome, hagrees.shows, hagrees.frame⟩

def endlessCount : Memory := (empty.serve ⟨0⟩ (.set "count" "5" none)).2

/-- The shortest lifetime, in whole seconds, that ends past the clock whenever it begins. -/
def pastClock : Duration := .ofSeconds Instant.endOfClock

theorem fails_of_crash {α : Type} {outcome : Except Crash (Except Failure α)} {c : Crash} (h : outcome = .error c) :
    Fails outcome := by
  rintro a rfl
  cases h

theorem overruns_endlessCount :
    endlessCount.Overruns ⟨0⟩ (.increment "count" 1 (some pastClock)) "count" ⟨"6", none⟩ :=
  ⟨rfl, .increment (e := ⟨"5", none⟩) (n := 6) (by decide +kernel) rfl rfl (by decide) (by decide)⟩

theorem overrun_leaves_sum :
    let counted := endlessCount.serve ⟨0⟩ (.increment "count" 1 (some pastClock))
    let claimed := endlessCount.serve ⟨0⟩ (.setIfAbsent "claim" "me" pastClock)
    Fails counted.1 ∧ endlessCount.Overruns ⟨0⟩ (.increment "count" 1 (some pastClock)) "count" ⟨"6", none⟩ ∧
      counted.2.Shows ⟨0⟩ "count" (some ⟨"6", none⟩) ∧ Fails claimed.1 ∧ endlessCount.Unchanged claimed.2 ⟨0⟩ := by
  intro counted claimed
  have hcounted : Fails counted.1 := fails_of_crash rfl
  have hclaimed : Fails claimed.1 := fails_of_crash rfl
  refine ⟨hcounted, overruns_endlessCount, ?_, hclaimed, ?_⟩
  · exact ((failed_request_leaves _ _ _ hcounted).2 _ _ overruns_endlessCount).2.1
  · refine (failed_request_leaves _ _ _ hclaimed).1 ?_
    rintro key e ⟨_, hoverruns⟩
    cases hoverruns

/-- A count that has crashed has changed what is seen. -/
theorem crashed_count_is_raised : ¬ ∀ (m : Memory) (now : Instant) (r : Request),
    Fails (m.serve now r).1 → m.Unchanged (m.serve now r).2 now := by
  intro hclaim
  let counted := endlessCount.serve ⟨0⟩ (.increment "count" 1 (some pastClock))
  have hfails : Fails counted.1 := fails_of_crash rfl
  have hbefore : endlessCount.visible? ⟨0⟩ "count" = some ⟨"5", none⟩ := by decide +kernel
  have hafter : counted.2.visible? ⟨0⟩ "count" = some ⟨"6", none⟩ := by decide +kernel
  have hsame := hclaim endlessCount ⟨0⟩ (.increment "count" 1 (some pastClock)) hfails "count" ⟨0⟩ (Nat.le_refl _)
  exact absurd (hafter.symm.trans (hsame.trans hbefore)) (by decide)

end Memory

end Coordination.Store
