import Coordination.Proofs.Store.Cell

/-! # What is stored

The memory drops entries that are dead, so it stores less than the cells of its keys hold, but nothing else: an entry that is
stored, dead or alive, is the one that the cell of its key holds. The deadline in a cell is given to it by a write with a
lifetime, and a request without one is never sent by a service.
-/
namespace Coordination.Store

/-- What is stored under a key is what its cell holds. -/
def Memory.Stores (m : Memory) (key : String) (c : Cell) : Prop := ∀ e, m.entries.find? key = some e → c = some e

/-- The second memory stores what the cell of the key holds, and nothing under other keys that the first does not. -/
structure Memory.Within (m m' : Memory) (key : String) (c : Cell) : Prop where
  own : m'.Stores key c
  others : ∀ other d, other ≠ key → m.Stores other d → m'.Stores other d

namespace Memory
variable {m m' : Memory} {now : Instant} {key : String} {c : Cell}

theorem stores_find? (m : Memory) (key : String) : m.Stores key (m.entries.find? key) := fun _ h => h

theorem Stores.erase (h : m.Stores key c) (k : String) : (m.erase k).Stores key c := by
  intro e he
  simp only [Memory.erase, Entries.find?_erase] at he
  split at he
  · cases he
  · exact h e he

theorem within_self (h : m.Stores key c) : m.Within m key c := ⟨h, fun _ _ _ hd => hd⟩

theorem within_live (hm : m.Shows now key c) (h : m.Stores key c) :
    ∃ m', m.live now key = (c.live now, m') ∧ m.Within m' key c := by
  obtain ⟨m', hlive, _, _⟩ := live_of_shows hm
  refine ⟨m', hlive, ?_⟩
  obtain rfl : (m.live now key).2 = m' := congrArg Prod.snd hlive
  unfold live
  split
  · exact within_self h
  · exact ⟨h.erase key, fun _ _ _ hd => hd.erase key⟩

theorem Within.erase (h : m.Within m' key c) : m.Within (m'.erase key) key none := by
  refine ⟨?_, fun other d hne hd => (h.others other d hne hd).erase key⟩
  intro e he
  simp only [Memory.erase, Entries.find?_erase, if_true] at he
  cases he

theorem Within.put (h : m.Within m' key c) (e : Entry) : m.Within (m'.put key e) key (some e) := by
  refine ⟨?_, ?_⟩
  · intro e' he
    simpa only [Memory.put, Entries.find?_put, if_true] using he
  · intro other d hne hd e' he
    simp only [Memory.put, Entries.find?_put, if_neg hne] at he
    exact h.others other d hne hd e' he

theorem Within.insert (h : m.Within m' key c) (now : Instant) (e : Entry) :
    m.Within (m'.insert now key e) key (some e) := by
  have hput := h.put e
  simp only [Memory.insert]
  split
  · have hfewer : ∀ {other d}, (m'.put key e).Stores other d →
        Stores ⟨(m'.entries.put key e).keepLive now, 0⟩ other d := by
      intro other d hd e' he
      simp only [Entries.keepLive, Entries.find?_filter] at he
      exact hd e' (Option.filter_eq_some_iff.1 he).1
    exact ⟨hfewer hput.own, fun other d hne hd => hfewer (hput.others other d hne hd)⟩
  · exact ⟨hput.own, hput.others⟩

theorem Within.raise (h : m.Within m' key c) (now : Instant) (e : Entry) (amount : Int) (ttl : Option Duration) :
    m.Within (m'.raise now key e amount ttl).2 key (c.raise now key e amount ttl).2 := by
  simp only [Memory.raise, Cell.raise]
  cases sum key e.value amount with
  | error failure => exact h
  | ok n =>
    cases e.expiresAt with
    | some t => exact h.put _
    | none =>
      cases deadline now ttl with
      | error crash => exact h.put _
      | ok at? => exact h.put _

/-- After a request the memory stores what the cell holds that is served with it. -/
theorem serve_within (hm : m.Shows now key c) (h : m.Stores key c) {r : Request} (hr : r.key? = some key) :
    m.Within (m.serve now r).2 key (c.serve now r).2 := by
  obtain ⟨m', hlive, hlook⟩ := within_live hm h
  -- Requests that look the key up first do so through `live`, which drops a dead entry. `set` alone goes by without a look.
  unfold serve Cell.serve
  cases r.checkTtl with
  | error failure => exact within_self h
  | ok _ =>
    cases r with
    | ping => cases hr
    | setIfAbsent _ value ttl =>
      cases hr
      simp only [perform, Cell.perform, setIfAbsent, Cell.setIfAbsent, hlive]
      cases c.live now with
      | some e => exact hlook
      | none =>
        cases deadline now (some ttl) with
        | error crash => exact hlook
        | ok at? => exact hlook.insert now _
    | get _ =>
      cases hr
      simp only [perform, Cell.perform, get, Cell.get, hlive]
      exact hlook
    | set _ value ttl =>
      cases hr
      simp only [perform, Cell.perform, set, Cell.set]
      cases deadline now ttl with
      | error crash => exact within_self h
      | ok at? => exact (within_self h).insert now _
    | delete _ =>
      cases hr
      simp only [perform, Cell.perform, delete, Cell.delete, hlive]
      exact hlook.erase
    | increment _ amount ttl =>
      cases hr
      simp only [perform, Cell.perform, increment, Cell.increment, hlive]
      cases c.live now with
      | some e => exact hlook.raise now e amount ttl
      | none =>
        cases deadline now ttl with
        | error crash => exact hlook
        | ok at? => exact hlook.insert now _
    | ttlRemaining _ =>
      cases hr
      simp only [perform, Cell.perform, ttlRemaining, Cell.ttlRemaining, hlive]
      exact hlook
    | compareAndDelete _ expected =>
      cases hr
      simp only [perform, Cell.perform, compareAndDelete, Cell.compareAndDelete, hlive]
      cases c.live now with
      | none => exact hlook
      | some e =>
        by_cases he : e.value = expected
        · simp only [if_pos he]
          exact hlook.erase
        · simp only [if_neg he]
          exact hlook

theorem serve_stores_other (h : m.Stores key c) {r : Request} (hr : r.key? ≠ some key) :
    (m.serve now r).2.Stores key c := by
  cases hk : r.key? with
  | none =>
    cases r with
    | ping => exact h
    | _ => cases hk
  | some k =>
    have hne : key ≠ k := fun heq => hr (heq ▸ hk)
    exact (serve_within (m.shows_find? now k) (m.stores_find? k) hk).others key c hne h

end Memory

/-- Whatever the request writes has a lifetime. -/
def Request.Lasting : Request → Prop
  | .set _ _ ttl => ttl.isSome
  | .increment _ _ ttl => ttl.isSome
  | _ => True

namespace Cell

/-- A request gives a cell its deadline, by the outcome: it writes where nothing lives, or in any case. -/
inductive Dates (c : Cell) (now : Instant) : (r : Request) → Except Crash (Except Failure r.Reply) → Duration → Prop
  | claim (key value : String) (ttl : Duration) : Dates c now (.setIfAbsent key value ttl) (.ok (.ok true)) ttl
  | write (key value : String) (ttl : Duration) : Dates c now (.set key value (some ttl)) (.ok (.ok ())) ttl
  | count (hfresh : c.live now = none) (key : String) (amount n : Int) (ttl : Duration) :
    Dates c now (.increment key amount (some ttl)) (.ok (.ok n)) ttl

theorem Dates.ttl?_eq {c : Cell} {now : Instant} {r : Request} {o : Except Crash (Except Failure r.Reply)} {ttl : Duration}
    (h : c.Dates now r o ttl) : r.ttl? = some ttl := by
  cases h <;> rfl

/-- What is held has the deadline that was held before. -/
def KeepsDeadline (c c' : Cell) : Prop := ∀ e', c' = some e' → ∃ e, c = some e ∧ e'.expiresAt = e.expiresAt

theorem KeepsDeadline.refl (c : Cell) : c.KeepsDeadline c := fun e h => ⟨e, h, rfl⟩

theorem KeepsDeadline.gone (c : Cell) : c.KeepsDeadline none := by
  intro e h
  cases h

theorem serve_increment {c : Cell} (hc : ∀ e, c = some e → e.expiresAt.isSome) (now : Instant) (key : String)
    (amount : Int) (ttl : Duration) :
    (∃ value, c.live now = none ∧ (∃ n, (c.serve now (.increment key amount (some ttl))).1 = .ok (.ok n)) ∧
      (c.serve now (.increment key amount (some ttl))).2 = some ⟨value, some (now.advance ttl)⟩) ∨
    (c.live now = none → ∀ n, (c.serve now (.increment key amount (some ttl))).1 ≠ .ok (.ok n)) ∧
      c.KeepsDeadline (c.serve now (.increment key amount (some ttl))).2 := by
  unfold serve
  cases (Request.increment key amount (some ttl)).checkTtl with
  | error failure => exact .inr ⟨fun _ _ => by simp, .refl c⟩
  | ok _ =>
    simp only [perform, increment]
    cases hlive : c.live now with
    | none =>
      cases hd : Memory.deadline now (some ttl) with
      | error crash => exact .inr ⟨fun _ _ => by simp, .refl c⟩
      | ok at? =>
        obtain ⟨⟨t⟩, rfl, ht⟩ := deadline_some hd
        cases ht
        exact .inl ⟨toString amount, rfl, ⟨amount, rfl⟩, rfl⟩
    | some e =>
      have hce := (live_eq_some hlive).1
      obtain ⟨t, ht⟩ := Option.isSome_iff_exists.1 (hc e hce)
      refine .inr ⟨fun hnone => absurd hnone (Option.some_ne_none e), ?_⟩
      simp only [raise, ht]
      cases Memory.sum key e.value amount with
      | error failure => exact .refl c
      | ok n =>
        rintro e' ⟨⟩
        exact ⟨e, hce, ht.symm⟩

/-- A request whose writes have a lifetime gives a cell a new deadline or leaves it the one it has. -/
theorem dates_or_keeps {c : Cell} (hc : ∀ e, c = some e → e.expiresAt.isSome) (now : Instant) {r : Request}
    (hlasting : r.Lasting) :
    (∃ ttl value, c.Dates now r (c.serve now r).1 ttl ∧ (c.serve now r).2 = some ⟨value, some (now.advance ttl)⟩) ∨
    (∀ ttl, ¬ c.Dates now r (c.serve now r).1 ttl) ∧ c.KeepsDeadline (c.serve now r).2 := by
  have htime : ∀ {t : Instant} {ttl : Duration}, t.nanos = now.nanos + ttl.nanos → t = now.advance ttl := by
    rintro ⟨t⟩ ttl rfl
    rfl
  have hnone : r.ttl? = none → ∀ ttl, ¬ c.Dates now r (c.serve now r).1 ttl := by
    intro hr ttl h
    cases hr.symm.trans h.ttl?_eq
  cases r with
  | ping | get | ttlRemaining => exact .inr ⟨hnone rfl, .refl c⟩
  | delete => exact .inr ⟨hnone rfl, .gone c⟩
  | compareAndDelete key expected =>
    refine .inr ⟨hnone rfl, ?_⟩
    rcases c.serve_compareAndDelete now key expected with ⟨_, _, _, hs⟩ | ⟨_, hs⟩
    · rw [hs]
      exact .gone c
    · rw [hs]
      exact .refl c
  | setIfAbsent key value ttl =>
    rcases c.serve_setIfAbsent now key value ttl with ⟨t, _, ht, hs⟩ | ⟨hne, hs⟩
    · rw [hs, htime ht]
      exact .inl ⟨ttl, value, .claim key value ttl, rfl⟩
    · refine .inr ⟨fun _ h => ?_, by rw [hs]; exact .refl c⟩
      generalize (c.serve now (.setIfAbsent key value ttl)).1 = o at h hne
      cases h
      exact hne rfl
  | set key value ttl? =>
    obtain ⟨ttl, rfl⟩ := Option.isSome_iff_exists.1 hlasting
    rcases c.serve_set now key value ttl with ⟨t, ht, hs⟩ | ⟨hne, hs⟩
    · rw [hs, htime ht]
      exact .inl ⟨ttl, value, .write key value ttl, rfl⟩
    · refine .inr ⟨fun _ h => ?_, by rw [hs]; exact .refl c⟩
      generalize (c.serve now (.set key value (some ttl))).1 = o at h hne
      cases h
      exact hne rfl
  | increment key amount ttl? =>
    obtain ⟨ttl, rfl⟩ := Option.isSome_iff_exists.1 hlasting
    rcases serve_increment hc now key amount ttl with ⟨value, hfresh, ⟨n, hn⟩, hs⟩ | ⟨hne, hkeeps⟩
    · rw [hn]
      exact .inl ⟨ttl, value, .count hfresh key amount n ttl, hs⟩
    · refine .inr ⟨fun _ h => ?_, hkeeps⟩
      generalize (c.serve now (.increment key amount (some ttl))).1 = o at h hne
      cases h with
      | count hfresh => exact hne hfresh _ rfl

end Cell

end Coordination.Store
