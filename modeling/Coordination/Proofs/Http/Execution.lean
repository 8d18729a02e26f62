import Coordination.Proofs.Http.Holder

/-! # One execution at a time

Any requests with one idempotency key run side by side. As long as each of them that acquires the key comes to its end
while its claim lasts, the handler never runs twice at a time, and after it has run it does not begin again while the
response is kept, nor while the claim lasts of a request whose response could not be kept.
-/
namespace Coordination.Http
open Idempotency (CachedResponse Limits claimRequest claimText responseText storeKey)
open Store (Cell Memory)

/-- Every request that acquired the key came to its end while its claim lasted, or the claim still lasts. -/
def Timely (limits : Limits) (key : String) (p : Pool) : Prop :=
  ∀ d ∈ p.history, ∀ text, Acquires limits key d text →
    (∃ f ∈ p.history, f.task = d.task ∧ f.result ≠ none ∧ f.time.nanos < d.time.nanos + limits.inFlightTtl.nanos) ∨
      p.now.nanos < d.time.nanos + limits.inFlightTtl.nanos

variable {limits : Limits} {key : String} {cells : String → Cell} {p : Pool}

theorem Timely.storesOnTime (ht : Timely limits key p) (hp : p.Consistent (traffic limits key) cells) :
    StoresOnTime limits key p.history := by
  intro e he response hkept d hd text hacq htask
  have hres : e.result ≠ none := by
    obtain ⟨before, after, hhist⟩ := List.append_of_mem he
    have hsound := hp.sound
    rw [hhist] at hsound
    exact result_of_stores hsound hkept
  rcases ht d hd text hacq with ⟨f, hf, hftask, hfres, hftime⟩ | hnow
  · obtain rfl := hp.sound.eq_of_result he hf (htask.symm.trans hftask.symm) hres hfres
    exact hftime
  · exact Nat.lt_of_le_of_lt (hp.past e he) hnow

theorem Timely.before_next (ht : Timely limits key p) (hp : p.Consistent (traffic limits key) cells)
    {before after : List Event} {e : Event} (hhist : p.history = before ++ e :: after) {d : Event} {text : String}
    (hopen : Open limits key before d text) : e.time.nanos < d.time.nanos + limits.inFlightTtl.nanos := by
  have hmem : ∀ f ∈ before ++ e :: after, f ∈ p.history := fun f hf => hhist ▸ hf
  have hsound := hp.sound
  rw [hhist] at hsound
  rcases ht d (hmem d (List.mem_append_left _ hopen.mem)) text hopen.acquires with ⟨f, hf, hftask, hfres, hftime⟩ | hnow
  · rw [hhist] at hf
    rcases List.mem_append.1 hf with hf | hf
    · exact absurd (hopen.unfinished f hf hftask) hfres
    · rcases List.mem_cons.1 hf with rfl | hf
      · exact hftime
      · have hle := hsound.time_le.2 f hf
        omega
  · have hle := hp.past e (hmem e (by simp))
    omega

theorem Timely.onTime (ht : Timely limits key p) (hp : p.Consistent (traffic limits key) cells)
    {before after : List Event} {e : Event} (hhist : p.history = before ++ e :: after) {d : Event} {text : String}
    (hopen : Open limits key before d text) : OnTime limits before d := by
  intro f hf
  have hsound := hp.sound
  rw [hhist] at hsound
  have hle := hsound.time_le.1 f hf
  have hlt := ht.before_next hp hhist hopen
  omega

theorem open_of_began {before after : List Event} {b : Event}
    (h : Sound (traffic limits key) cells (before ++ b :: after)) (hwhat : b.what = .began) :
    ∃ d text, Open limits key before d text := by
  obtain ⟨_, q, next, hasking, htells⟩ := asking (h before b after rfl)
  obtain rfl := htells.question_eq_work hwhat
  obtain ⟨t, ms, hlog, _⟩ := hasking.won
  obtain ⟨d, hopen, _⟩ := open_of_won h.result_eq_none_before (hlog ▸ mem_wonLog t ms)
  exact ⟨d, _, hopen⟩

/-- While a record lasts after a calm moment, the handler does not begin. -/
theorem began_after {before after : List Event} (hp : p.Consistent (traffic limits key) cells) (ht : Timely limits key p)
    (hhist : p.history = before ++ after) (hcalm : Calm limits key before) {value : String} {deadline : Instant}
    (hcell : held (storeKey key) (cells (storeKey key)) before = some ⟨value, some deadline⟩)
    (hfree : ∀ d, ¬ Open limits key before d value) :
    ∀ b ∈ after, b.what = .began → deadline.nanos ≤ b.time.nanos := by
  intro b hb hbegan
  apply Nat.not_lt.1
  intro htime
  obtain ⟨mid, rest, rfl⟩ := List.append_of_mem hb
  have hsound := hp.sound
  have hstores := ht.storesOnTime hp
  rw [← List.append_assoc] at hhist
  rw [hhist] at hsound hstores
  have hmid : ∀ e ∈ mid, e.time.nanos < deadline.nanos := by
    intro e he
    have hle := hsound.time_le.1 e (List.mem_append_right before he)
    omega
  obtain ⟨hcalm', _⟩ := hcalm.stays hsound.of_append hstores.of_append hcell hmid hfree
  obtain ⟨d, text, hopen⟩ := open_of_began hsound hbegan
  exact hcalm' d text hopen (ht.onTime hp hhist hopen)

theorem open_of_working {m : Memory} {now : Instant} {moves : List (Move Request Response)}
    (hp : ((Pool.opened m now).run (traffic limits key) moves).Consistent (traffic limits key) cells) {i : Nat}
    (hi : ((Pool.opened m now).run (traffic limits key) moves).IsWorking i) :
    ∃ d text, Open limits key ((Pool.opened m now).run (traffic limits key) moves).history d text ∧ d.task = i := by
  obtain ⟨task, htask, hstatus⟩ := hi
  obtain ⟨next, hrest⟩ := Pool.asks_of_working (traffic limits key) m now moves htask hstatus
  obtain ⟨_, _, hadmits⟩ := hp.admitted i task htask
  have hleads := hp.leads i task htask
  rw [hrest] at hleads
  have hop : ∀ f ∈ ((Pool.opened m now).run (traffic limits key) moves).history, f.task = i → f.op = task.op := by
    intro f hf hftask
    obtain ⟨task', htask', hop⟩ := hp.called f hf
    rw [hftask, htask] at htask'
    cases htask'
    exact hop.symm
  have hends := hp.sound.result_eq_none hop hleads
  obtain ⟨t, ms, hlog, _⟩ := (asking_of_leads (of_decide_eq_true hadmits) hleads).won
  obtain ⟨d, hopen, hdtask⟩ := open_of_won (hp.sound.result_eq_none hop hleads) (hlog ▸ mem_wonLog t ms)
  exact ⟨d, _, hopen, hdtask⟩

/-- A request whose response cannot be kept comes to its end when the handler has run, and leaves its claim. -/
theorem left_claim {before after : List Event} {f : Event}
    (h : Sound (traffic limits key) cells (before ++ f :: after)) {w : Response} {bytes : ByteArray}
    (hwhat : f.what = .answered .work w) (hstatus : w.isServerError = false) (hbody : w.body = .whole bytes)
    (hkeep : ¬ Keepable limits bytes) :
    f.result ≠ none ∧ (∀ c, f.onto (storeKey key) c = c) ∧ ∃ d text, Open limits key before d text ∧ d.task = f.task := by
  obtain ⟨hok, q, next, hasking, htells⟩ := asking (h before f after rfl)
  obtain rfl := htells.question_eq hwhat
  obtain ⟨t, ms, hlog, rfl⟩ := hasking.won
  obtain ⟨d, hopen, htask⟩ := open_of_won h.result_eq_none_before (hlog ▸ mem_wonLog t ms)
  refine ⟨?_, htells.onto_eq (by simp) _, d, _, hopen, htask⟩
  rcases htells with ⟨hbegan, _⟩ | ⟨w', hwhat', hres, _⟩
  · cases hbegan.symm.trans hwhat
  · cases hwhat'.symm.trans hwhat
    rw [hres, settle_eq hok, settlement_eq_none hstatus hbody hkeep]
    simp

/-- Whatever requests with one key and others do and in whatever order, provided every request that acquires the key comes
to its end while its claim lasts: the handler is in progress for one request at most; after a response was kept it does
not begin again before the time of that is over; and after it has run to a response that is no server error and cannot be
kept, it does not begin again before the claim of that request is over. -/
theorem handler_runs_once (limits : Limits) (key : String) (m : Memory) (now : Instant)
    (moves : List (Move Request Response))
    (ht : Timely limits key ((Pool.opened m now).run (traffic limits key) moves)) :
    let p := (Pool.opened m now).run (traffic limits key) moves
    (∀ i j, p.IsWorking i → p.IsWorking j → i = j) ∧
    (∀ before e after response, p.history = before ++ e :: after → Stores limits key e response →
      ∀ b ∈ after, b.what = .began → e.time.nanos + limits.cacheTtl.nanos ≤ b.time.nanos) ∧
    ∀ before f after w bytes, p.history = before ++ f :: after → f.what = .answered .work w →
      w.isServerError = false → w.body = .whole bytes → ¬ Keepable limits bytes →
      ∃ d ∈ before, d.task = f.task ∧ (∃ text, Acquires limits key d text) ∧
        ∀ b ∈ after, b.what = .began → d.time.nanos + limits.inFlightTtl.nanos ≤ b.time.nanos := by
  intro p
  have hp : p.Consistent (traffic limits key) m.entries.find? := Pool.consistent_found _ m now moves
  have hstores := ht.storesOnTime hp
  refine ⟨?_, ?_, ?_⟩
  · intro i j hi hj
    obtain ⟨d, text, hopen, rfl⟩ := open_of_working hp hi
    obtain ⟨d', text', hopen', rfl⟩ := open_of_working hp hj
    -- A request at work has an open claim and has not come to its end, so by `ht` the claim has not run out.
    have lasts : ∀ {d text}, Open limits key p.history d text → OnTime limits p.history d := by
      intro d text hopen f hf
      have hle := hp.past f hf
      rcases ht d hopen.mem text hopen.acquires with ⟨g, hg, hgtask, hgres, _⟩ | hnow
      · exact absurd (hopen.unfinished g hg hgtask) hgres
      · exact Nat.lt_of_le_of_lt hle hnow
    exact task_eq_of_open hp.sound hstores hopen hopen' (lasts hopen) (lasts hopen')
  · intro before e after response hhist hkept
    have hsound := hp.sound
    rw [hhist] at hsound hstores
    obtain ⟨⟨d, text, hopen, htask⟩, u, hu, hcell⟩ := kept_response hsound hkept
    have hcalm := calm_of_finished hsound hstores.of_append hopen htask (ht.onTime hp hhist hopen)
      (result_of_stores hsound hkept)
    rw [List.append_cons] at hhist hsound
    rw [← hu]
    exact began_after hp ht hhist hcalm hcell (not_open_responseText hsound.of_append response)
  · intro before f after w bytes hhist hwhat hstatus hbody hkeep
    have hsound := hp.sound
    rw [hhist] at hsound hstores
    obtain ⟨hres, hsame, d, text, hopen, htask⟩ := left_claim hsound hwhat hstatus hbody hkeep
    have htime := ht.onTime hp hhist hopen
    have hcalm := calm_of_finished hsound hstores.of_append hopen htask htime hres
    have hcell : held (storeKey key) (m.entries.find? (storeKey key)) (before ++ [f]) =
        some ⟨text, some (d.time.advance limits.inFlightTtl)⟩ := by
      rw [held_concat, hsame]
      exact claim_held hsound.of_append hstores.of_append hopen htime
    -- The claim stays without a request that works under it: its own request ends with `f`.
    have hfree : ∀ d', ¬ Open limits key (before ++ [f]) d' text := by
      intro d' hopen'
      rcases hopen'.of_concat with ⟨hbefore, hends⟩ | ⟨rfl, _⟩
      · have hsame := task_eq_of_acquires hsound.of_append hbefore.mem hopen.mem hbefore.acquires hopen.acquires
        exact hres (hends (hsame.trans htask))
      · exact hres (hopen'.unfinished d' (by simp) rfl)
    rw [List.append_cons] at hhist
    exact ⟨d, hopen.mem, htask, ⟨text, hopen.acquires⟩, began_after hp ht hhist hcalm hcell hfree⟩

/-- The handler runs to a response that is kept, and begins again for another request after the time of that. -/
def again : List (Move Request Response) :=
  .call keyed :: ([.token 0 "a", .clock 0 0, .store 0, .beginWork 0, .endWork 0 (.plain 200 "ok"), .store 0,
    .advance (.ofMillis 2)] ++ .call keyed :: [.token 1 "b", .clock 1 2, .store 1, .beginWork 1])

theorem handler_runs_again :
    Timely brief "k" ((Pool.opened Memory.empty ⟨0⟩).run (traffic brief "k") again) ∧
      ∃ before e mid b response,
        ((Pool.opened Memory.empty ⟨0⟩).run (traffic brief "k") again).history = before ++ e :: (mid ++ [b]) ∧
        Stores brief "k" e response ∧ b.what = .began ∧ e.time.nanos + brief.cacheTtl.nanos ≤ b.time.nanos := by
  obtain ⟨t, c, d, s, w, e, t', c', d', b, hhist, hnow, hother, hd, he, hd', hb⟩ :
      ∃ t c d s w e t' c' d' b : Event,
        ((Pool.opened Memory.empty ⟨0⟩).run (traffic brief "k") again).history =
          [t, c, d, s, w] ++ e :: ([t', c', d'] ++ [b]) ∧
        ((Pool.opened Memory.empty ⟨0⟩).run (traffic brief "k") again).now = d'.time ∧
        (∀ x ∈ [t, c, s, w, e, t', c', b], ∀ text, ¬ Acquires brief "k" x text) ∧
        (e.task = d.task ∧ e.result.isSome = true ∧ e.time = d.time) ∧
        Stores brief "k" e (cacheable (.plain 200 "ok") "ok") ∧ Acquires brief "k" d' (claimText "b" 2) ∧ b.what = .began := by
    rw [again, run_call key?_keyed, Pool.run_append, run_call key?_keyed]
    exact ⟨_, _, _, _, _, _, _, _, _, _, rfl, rfl, by simp [Acquires], ⟨rfl, rfl, rfl⟩, ⟨rfl, by decide⟩, rfl, rfl⟩
  have ht : Timely brief "k" ((Pool.opened Memory.empty ⟨0⟩).run (traffic brief "k") again) := by
    have hlast : ∀ x : Instant, x.nanos < x.nanos + brief.inFlightTtl.nanos := fun x => Nat.lt_add_of_pos_right (by decide)
    intro x hx text hacq
    rw [hhist] at hx ⊢
    by_cases hxd : x = d
    · subst hxd
      refine .inl ⟨e, by simp, hd.1, ?_, hd.2.2 ▸ hlast _⟩
      intro hnone
      simp [hnone] at hd
    · by_cases hxd' : x = d'
      · exact .inr (by rw [hnow, hxd']; exact hlast _)
      · refine absurd hacq (hother x ?_ text)
        simp_all
  exact ⟨ht, _, e, _, b, _, hhist, he, hb,
    (handler_runs_once brief "k" Memory.empty ⟨0⟩ again ht).2.1 _ e _ _ hhist he b (by simp) hb⟩

end Coordination.Http
