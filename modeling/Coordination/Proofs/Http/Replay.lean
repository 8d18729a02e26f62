import Coordination.Proofs.Http.Holder

/-! # What is replayed

A replay is always that of the response that was kept last. A response that is kept while the claim of its request lasts
takes the place of that claim and nothing else, so if all are, the first one stands for its time. One that is kept later
takes the place of whatever is there, even the response of a later request. Giving up a claim never does so.
-/
namespace Coordination.Http
open Idempotency (CachedResponse IsClaim Limits Standing claimRequest claimText responseText seen standingOf
  standingOf_responseText storeKey)
open Store (Cell Memory)

/-- The request of the event was answered by a replay: its handler did not run. -/
structure Replays (before : List Event) (e : Event) (cached : CachedResponse) : Prop where
  result : e.result = some (replay cached)
  idle : ∀ f ∈ before ++ [e], f.task = e.task → ∀ w, f.what ≠ .answered .work w

variable {limits : Limits} {key : String} {cells : String → Cell}

theorem replay_headers (cached : CachedResponse) : (replay cached).headers.head?.map Prod.fst = some replayedHeader := rfl

theorem replay_ne_ofFailure (cached : CachedResponse) (failure : Failure) : replay cached ≠ .ofFailure failure := by
  intro h
  have hname := replay_headers cached
  rw [h] at hname
  cases failure <;> revert hname <;> simp [Response.ofFailure, Response.plain, replayedHeader]

theorem replay_ne_inProgress (cached : CachedResponse) : replay cached ≠ inProgress := by
  intro h
  have hname := replay_headers cached
  rw [h] at hname
  revert hname
  simp [inProgress, Response.json, replayedHeader]

theorem cached_of_replay {standing : Except Failure Standing} {cached : CachedResponse}
    (h : (afterCheck limits standing).result? = some (replay cached)) : ∃ found, standing = .ok (.cached found) := by
  rcases standing with failure | ticket | _ | found
  · exact absurd (Option.some.inj h).symm (replay_ne_ofFailure cached failure)
  · cases h
  · exact absurd (Option.some.inj h).symm (replay_ne_inProgress cached)
  · exact ⟨found, rfl⟩

/-- A request that is answered by a replay has found a response under its key, and that is what is replayed. -/
theorem found_of_replays {before after : List Event} {r : Event}
    (h : Sound (traffic limits key) cells (before ++ r :: after)) {cached : CachedResponse}
    (hreplay : Replays before r cached) :
    ∃ entry found, (held (storeKey key) (cells (storeKey key)) before).live r.time = some entry ∧
      standingOf entry.value = .ok (.cached found) ∧ r.result = some (replay found) := by
  obtain ⟨_, q, next, hasking, htells⟩ := asking (h before r after rfl)
  have hresult := hreplay.result
  generalize hlog : answersOf r.task before = log at hasking
  -- The answers so far say at which of its six stops the request is, and a replay comes out of the look at the key alone.
  cases hasking with
  | start hnone =>
    obtain ⟨t, _, hres, _⟩ := htells
    rw [hres, hnone] at hresult
    cases hresult
  | drawn _ hnone =>
    obtain ⟨ms, _, hres, _⟩ := htells
    rw [hres, hnone] at hresult
    cases hresult
  | claiming t ms =>
    obtain ⟨o, _, hres, _⟩ := htells
    rw [hres] at hresult
    rcases o with crash | failure | _ | _
    · cases hresult
    · exact absurd (Option.some.inj hresult).symm (replay_ne_ofFailure cached failure)
    · cases hresult
    · cases hresult
  | looking t ms =>
    obtain ⟨o, _, hres, hserve⟩ := htells
    have ho : (.ok (.ok (((held (storeKey key) (cells (storeKey key)) before).live r.time).map Store.Entry.value)) :
        Except Store.Crash (Except Failure (Option String))) = o := hserve _ traffic_owns rfl
    subst ho
    obtain ⟨found, hseen⟩ := cached_of_replay (hres.symm.trans hresult)
    have hreplayed : r.result = some (replay found) := by
      rw [hres, resultOf, hseen]
      rfl
    cases hlive : (held (storeKey key) (cells (storeKey key)) before).live r.time with
    | none =>
      rw [hlive] at hseen
      cases hseen
    | some entry =>
      rw [hlive] at hseen
      exact ⟨entry, found, rfl, hseen, hreplayed⟩
  | working t ms =>
    rcases htells with ⟨_, hres⟩ | ⟨w, hwhat, _⟩
    · rw [hres] at hresult
      cases hresult
    · exact absurd hwhat (hreplay.idle r (by simp) rfl w)
  | settling t ms w hr =>
    have hworked : (⟨.work, w⟩ : Answered Response) ∈ answersOf r.task before := by
      rw [hlog]
      simp
    obtain ⟨x, hx, htask, hwhat⟩ := mem_answersOf hworked
    exact absurd hwhat (hreplay.idle x (List.mem_append_left [r] hx) htask w)

theorem replays_of_found {before after : List Event} {r : Event}
    (h : Sound (traffic limits key) cells (before ++ r :: after)) {response : CachedResponse}
    (hfits : response.statusCode < 2 ^ 16)
    (hwhat : r.what = .answered (.store (.get (storeKey key))) (.ok (some (responseText response)))) :
    Replays before r response := by
  obtain ⟨_, q, next, hasking, htells⟩ := asking (h before r after rfl)
  have hq := htells.question_eq hwhat
  generalize hlog : answersOf r.task before = log at hasking
  cases hasking with
  | looking t ms =>
    constructor
    · obtain ⟨o, hserved, hres, _⟩ := htells
      cases o with
      | error crash => cases hserved.symm.trans hwhat
      | ok reply =>
        injection hserved.symm.trans hwhat with _ hreply
        rw [hres, resultOf, hreply, seen, standingOf_responseText hfits]
        rfl
    · intro f hf htask w hwork
      rcases List.mem_append.1 hf with hf | hf
      · have hworked := answersOf_mem hf hwork
        rw [htask, hlog] at hworked
        simp at hworked
      · cases List.mem_singleton.1 hf
        cases hwork.symm.trans hwhat
  | settling t ms w hr => rcases settlement_cases hr with rfl | ⟨_, rfl⟩ <;> cases hq
  | _ => cases hq

/-- A response stays for its time, unless another one is kept after it. -/
theorem held_while_kept {before mid : List Event} {e : Event}
    (h : Sound (traffic limits key) cells (before ++ e :: mid)) {response : CachedResponse}
    (hkept : Stores limits key e response) (hlast : ∀ d ∈ mid, ∀ other, ¬ Stores limits key d other)
    (htime : ∀ d ∈ mid, d.time.nanos < e.time.nanos + limits.cacheTtl.nanos) :
    ∃ u : Instant, u.nanos = e.time.nanos + limits.cacheTtl.nanos ∧
      held (storeKey key) (cells (storeKey key)) (before ++ e :: mid) = some ⟨responseText response, some u⟩ := by
  obtain ⟨_, u, hu, hcell⟩ := kept_response h hkept
  refine ⟨u, hu, ?_⟩
  rw [List.append_cons] at h ⊢
  exact stays h hcell (by rwa [hu]) (not_open_responseText h.of_append response) hlast

theorem lt_of_later {before mid after : List Event} {e r : Event}
    (h : Sound (traffic limits key) cells (before ++ e :: mid ++ r :: after)) {n : Nat} (htime : r.time.nanos < n) :
    ∀ d ∈ mid, d.time.nanos < n := by
  intro d hd
  have hle := h.time_le.1 d (List.mem_append_right before (List.mem_cons_of_mem e hd))
  omega

theorem live_while_kept {before mid after : List Event} {e r : Event}
    (h : Sound (traffic limits key) cells (before ++ e :: mid ++ r :: after)) {response : CachedResponse}
    (hkept : Stores limits key e response) (hlast : ∀ d ∈ mid, ∀ other, ¬ Stores limits key d other)
    (htime : r.time.nanos < e.time.nanos + limits.cacheTtl.nanos) :
    ∃ u : Instant, (held (storeKey key) (cells (storeKey key)) (before ++ e :: mid)).live r.time =
      some ⟨responseText response, some u⟩ := by
  obtain ⟨u, hu, hheld⟩ := held_while_kept h.of_append hkept hlast (lt_of_later h htime)
  exact ⟨u, by rw [hheld, Cell.live_until, if_pos (by omega)]⟩

theorem replay_of_last {before mid after : List Event} {e r : Event}
    (h : Sound (traffic limits key) cells (before ++ e :: (mid ++ r :: after))) {response cached : CachedResponse}
    (hkept : Stores limits key e response) (hlast : ∀ d ∈ mid, ∀ other, ¬ Stores limits key d other)
    (hreplay : Replays (before ++ e :: mid) r cached) (htime : r.time.nanos < e.time.nanos + limits.cacheTtl.nanos) :
    r.result = some (replay response) := by
  rw [← List.cons_append, ← List.append_assoc] at h
  obtain ⟨u, hheld⟩ := live_while_kept h hkept hlast htime
  obtain ⟨entry, found, hlive, hfound, hres⟩ := found_of_replays h hreplay
  obtain rfl := Option.some.inj (hheld.symm.trans hlive)
  have hstanding := (standingOf_responseText hkept.fits).symm.trans hfound
  rw [Standing.cached.inj (Except.ok.inj hstanding)]
  exact hres

theorem exists_last_kept {history : List Event} (h : ∃ e ∈ history, ∃ response, Stores limits key e response) :
    ∃ early last late kept, history = early ++ last :: late ∧ Stores limits key last kept ∧
      ∀ d ∈ late, ∀ other, ¬ Stores limits key d other := by
  induction history with
  | nil =>
    obtain ⟨e, he, _⟩ := h
    cases he
  | cons d history ih =>
    by_cases hlater : ∃ e ∈ history, ∃ response, Stores limits key e response
    · obtain ⟨early, last, late, kept, rfl, hlast⟩ := ih hlater
      exact ⟨d :: early, last, late, kept, rfl, hlast⟩
    · obtain ⟨e, he, response, hkept⟩ := h
      rcases List.mem_cons.1 he with rfl | he
      · exact ⟨[], e, history, response, rfl, hkept, fun x hx other hother => hlater ⟨x, hx, other, hother⟩⟩
      · exact absurd ⟨e, he, response, hkept⟩ hlater

/-- If responses are kept on time, none is kept while another one lasts. -/
theorem not_stores_after {before mid : List Event} {e : Event}
    (h : Sound (traffic limits key) cells (before ++ e :: mid)) {response : CachedResponse}
    (hkept : Stores limits key e response) (hstores : StoresOnTime limits key (before ++ e :: mid))
    (htime : ∀ d ∈ mid, d.time.nanos < e.time.nanos + limits.cacheTtl.nanos) :
    ∀ d ∈ mid, ∀ other, ¬ Stores limits key d other := by
  obtain ⟨⟨d, text, hopen, htask⟩, u, hu, hcell⟩ := kept_response h hkept
  have he := h before e mid rfl
  have hresult := result_of_stores h hkept
  have hbefore := hstores.of_append
  rw [List.append_cons] at hstores
  have hcalm := calm_of_finished h hbefore hopen htask (hstores.of_append.onTime he hkept hopen htask) hresult
  rw [List.append_cons] at h
  refine (hcalm.stays h hstores hcell ?_ (not_open_responseText h.of_append response)).2
  intro f hf
  have hlt := htime f hf
  omega

theorem eq_of_acquires {history : List Event} (h : Sound (traffic limits key) cells history) {d e : Event} {text : String}
    (hd : d ∈ history) (he : e ∈ history) (hacq : Acquires limits key d text) (hacq' : Acquires limits key e text) :
    d = e := by
  -- Who asks for its claim has got no answer to that before.
  have later : ∀ {before after : List Event} {d e : Event}, Sound (traffic limits key) cells (before ++ e :: after) →
      d ∈ before → d.task = e.task → Acquires limits key d text → ¬ Acquires limits key e text := by
    intro before after d e h hd htask hacq hacq'
    have hanswer := answersOf_mem hd hacq
    obtain ⟨t, ms, _, hlog⟩ := answersOf_acquires h hacq'
    rw [htask, hlog] at hanswer
    simp at hanswer
  have htask := task_eq_of_acquires h hd he hacq hacq'
  rcases eq_or_before hd he with heq | ⟨before, after, rfl, hbefore⟩ | ⟨before, after, rfl, hbefore⟩
  · exact heq
  · exact absurd hacq' (later h hbefore htask hacq)
  · exact absurd hacq (later h hbefore htask.symm hacq')

/-- Neither has a request acquired the key nor has a response been kept. -/
def Untouched (limits : Limits) (key : String) (mid : List Event) : Prop :=
  ∀ x ∈ mid, (∀ text, ¬ Acquires limits key x text) ∧ ∀ response, ¬ Stores limits key x response

/-- A claim that is still there is that of the request that acquired the key last, and nothing was kept since. -/
theorem untouched_since {history : List Event} (h : Sound (traffic limits key) cells history) {d : Event} {text : String}
    {at? : Option Instant} (hd : d ∈ history) (hacq : Acquires limits key d text)
    (hcell : held (storeKey key) (cells (storeKey key)) history = some ⟨text, at?⟩) :
    ∃ before mid, history = before ++ d :: mid ∧ Untouched limits key mid := by
  -- Along the history: the last event put the claim there, or took it away, or left the key as it was.
  revert hd hcell
  refine h.induction (P := fun history => d ∈ history →
    held (storeKey key) (cells (storeKey key)) history = some ⟨text, at?⟩ →
      ∃ before mid, history = before ++ d :: mid ∧ Untouched limits key mid) ?_ ?_
  · intro hd
    cases hd
  · intro before e hbefore he ih hd hcell
    have hafter := hbefore.concat he
    have hclaim : IsClaim text := by
      obtain ⟨t, ms, htext, _⟩ := token_of_acquires hafter hd hacq
      exact ⟨t, ms, htext⟩
    rw [held_concat] at hcell
    cases deed hafter with
    | acquire hacq' _ _ honto =>
      injection honto.symm.trans hcell with hentry
      injection hentry with htext
      subst htext
      obtain rfl := eq_of_acquires hafter hd (by simp) hacq hacq'
      exact ⟨before, [], rfl, by simp [Untouched]⟩
    | store _ _ _ _ _ _ honto =>
      injection honto.symm.trans hcell with hentry
      injection hentry with htext
      rw [← htext] at hclaim
      exact absurd hclaim (Idempotency.not_isClaim_responseText _)
    | release _ _ _ _ _ _ honto => cases honto.symm.trans hcell
    | stay hno hnone _ honto =>
      rw [honto] at hcell
      rcases List.mem_append.1 hd with hd | hd
      · obtain ⟨early, mid, rfl, hmid⟩ := ih hd hcell
        refine ⟨early, mid ++ [e], by simp, ?_⟩
        intro x hx
        rcases List.mem_append.1 hx with hx | hx
        · exact hmid x hx
        · cases List.mem_singleton.1 hx
          exact ⟨hno, hnone⟩
      · cases List.mem_singleton.1 hd
        exact absurd hacq (hno text)

/-- Who keeps a response on time does so over its own claim. -/
theorem own_claim_of_stores {before after : List Event} {e : Event}
    (h : Sound (traffic limits key) cells (before ++ e :: after)) {response : CachedResponse}
    (hkept : Stores limits key e response) (hstores : StoresOnTime limits key (before ++ [e])) :
    ∃ d early mid, before = early ++ d :: mid ∧ d.task = e.task ∧ (∃ text, Acquires limits key d text) ∧
      Untouched limits key mid := by
  obtain ⟨⟨d, text, hopen, htask⟩, _⟩ := kept_response h hkept
  have hontime := hstores.onTime (h before e after rfl) hkept hopen htask
  have hcell := claim_held h.of_append hstores.of_append hopen hontime
  obtain ⟨early, mid, hbefore, hmid⟩ := untouched_since h.of_append hopen.mem hopen.acquires hcell
  exact ⟨d, early, mid, hbefore, htask, ⟨text, hopen.acquires⟩, hmid⟩

theorem own_claim_of_release {before after : List Event} {e : Event}
    (h : Sound (traffic limits key) cells (before ++ e :: after)) {text : String}
    (hreleases : Releases key e text) :
    ∃ d early mid, before = early ++ d :: mid ∧ d.task = e.task ∧ Acquires limits key d text ∧
      Untouched limits key mid := by
  cases deed h with
  | acquire hacq => cases hacq.symm.trans hreleases
  | store _ _ _ hkept => cases hkept.what.symm.trans hreleases
  | stay _ _ hno => exact absurd hreleases (hno text)
  | @release d t ms entry hopen htask _ hreleased hlive hvalue =>
    have htext := hreleased.text_eq hreleases
    have hcell : held (storeKey key) (cells (storeKey key)) before = some ⟨claimText t ms, entry.expiresAt⟩ := by
      rw [(Cell.live_eq_some hlive).1, ← hvalue]
    obtain ⟨early, mid, hbefore, hmid⟩ := untouched_since h.of_append hopen.mem hopen.acquires hcell
    exact ⟨d, early, mid, hbefore, htask, htext ▸ hopen.acquires, hmid⟩

/-- Whatever requests with one key and others do and in whatever order: a request that is answered by a replay while a
response lasts replays the one that was kept last since, which is that response if every response is kept on time. A
response that is kept on time takes the place of its own request's claim, and so does the end of a claim that is given up
at any time: since that claim nobody had acquired the key and nothing had been kept. -/
theorem last_kept_response_is_replayed (limits : Limits) (key : String) (m : Memory) (now : Instant)
    (moves : List (Move Request Response)) :
    let p := (Pool.opened m now).run (traffic limits key) moves
    (∀ before e mid r after response cached, p.history = before ++ e :: mid ++ r :: after →
      Stores limits key e response → Replays (before ++ e :: mid) r cached →
      r.time.nanos < e.time.nanos + limits.cacheTtl.nanos →
      (∃ early last late kept, e :: mid = early ++ last :: late ∧ Stores limits key last kept ∧
        (∀ d ∈ late, ∀ other, ¬ Stores limits key d other) ∧ r.result = some (replay kept)) ∧
      (StoresOnTime limits key (before ++ e :: mid) → r.result = some (replay response))) ∧
    (∀ before e after response, p.history = before ++ e :: after → Stores limits key e response →
      StoresOnTime limits key (before ++ [e]) →
      ∃ d early mid, before = early ++ d :: mid ∧ d.task = e.task ∧ (∃ text, Acquires limits key d text) ∧
        Untouched limits key mid) ∧
    ∀ before e after text, p.history = before ++ e :: after → Releases key e text →
      ∃ d early mid, before = early ++ d :: mid ∧ d.task = e.task ∧ Acquires limits key d text ∧
        Untouched limits key mid := by
  intro p
  have hsound : Sound (traffic limits key) m.entries.find? p.history := (Pool.consistent_found _ m now moves).sound
  refine ⟨?_, ?_, ?_⟩
  · intro before e mid r after response cached hhist hkept hreplay htime
    rw [hhist] at hsound
    have hsplit : Sound (traffic limits key) m.entries.find? (before ++ e :: (mid ++ r :: after)) := by
      rwa [List.append_assoc, List.cons_append] at hsound
    constructor
    · obtain ⟨early, last, late, kept, heq, hlast, hnone⟩ := exists_last_kept ⟨e, List.mem_cons_self, response, hkept⟩
      refine ⟨early, last, late, kept, heq, hlast, hnone, ?_⟩
      have hall : before ++ e :: mid = (before ++ early) ++ last :: late := by rw [heq, List.append_assoc]
      rw [hall] at hsound hreplay
      have hle : e.time.nanos ≤ last.time.nanos := by
        have hmem : last ∈ e :: mid := by rw [heq]; simp
        rcases List.mem_cons.1 hmem with rfl | hmem
        · exact Nat.le_refl _
        · exact hsplit.time_le.2 last (List.mem_append_left _ hmem)
      rw [List.append_assoc, List.cons_append] at hsound
      exact replay_of_last hsound hlast hnone hreplay (by omega)
    · intro hstores
      have hmid : ∀ d ∈ mid, d.time.nanos < e.time.nanos + limits.cacheTtl.nanos := by
        intro d hd
        have hle := hsound.time_le.1 d (List.mem_append_right before (List.mem_cons_of_mem e hd))
        omega
      exact replay_of_last hsplit hkept (not_stores_after hsound.of_append hkept hstores hmid) hreplay htime
  · intro before e after response hhist hkept hstores
    rw [hhist] at hsound
    exact own_claim_of_stores hsound hkept hstores
  · intro before e after text hhist hreleases
    rw [hhist] at hsound
    exact own_claim_of_release hsound hreleases

/-- The handler of the first request takes as long as its claim lasts, and meanwhile a second request acquires the key and
keeps its response. Then the first one keeps its own, and a third request comes. -/
def overtaken : List (Move Request Response) :=
  .call keyed :: ([.token 0 "a", .clock 0 0, .store 0, .beginWork 0, .advance (.ofMillis 5)] ++
    .call keyed :: ([.token 1 "b", .clock 1 5, .store 1, .beginWork 1, .endWork 1 (.plain 200 "second"), .store 1,
      .endWork 0 (.plain 200 "first"), .store 0] ++
      .call keyed :: [.token 2 "c", .clock 2 5, .store 2, .store 2]))

theorem overtaken_history : ∃ (before : List Event) (e : Event) (mid : List Event) (r : Event),
    ((Pool.opened Memory.empty ⟨0⟩).run (traffic brief "k") overtaken).history = before ++ e :: mid ++ r :: [] ∧
      Stores brief "k" e (cacheable (.plain 200 "second") "second") ∧
      Replays (before ++ e :: mid) r (cacheable (.plain 200 "first") "first") ∧
      r.time.nanos < e.time.nanos + brief.cacheTtl.nanos := by
  obtain ⟨t, c, d, w, t', c', d', w', v', e, v, s, t'', c'', d'', r, hhist, hkept, hwhat, hetime, hrtime⟩ :
      ∃ t c d w t' c' d' w' v' e v s t'' c'' d'' r : Event,
        ((Pool.opened Memory.empty ⟨0⟩).run (traffic brief "k") overtaken).history =
          [t, c, d, w, t', c', d', w', v'] ++ e :: [v, s, t'', c'', d''] ++ [r] ∧
        Stores brief "k" e (cacheable (.plain 200 "second") "second") ∧
        r.what = .answered (.store (.get (storeKey "k")))
          (.ok (some (responseText (cacheable (.plain 200 "first") "first")))) ∧
        e.time.nanos = 5000000 ∧ r.time.nanos = 5000000 := by
    rw [overtaken, run_call key?_keyed, Pool.run_append, run_call key?_keyed, Pool.run_append, run_call key?_keyed]
    exact ⟨_, _, _, _, _, _, _, _, _, _, _, _, _, _, _, _, rfl, ⟨rfl, by decide⟩, rfl, rfl, rfl⟩
  have hsound := (Pool.consistent_found (traffic brief "k") Memory.empty ⟨0⟩ overtaken).sound
  rw [hhist] at hsound
  refine ⟨_, e, _, r, hhist, hkept, replays_of_found hsound (by decide) hwhat, ?_⟩
  rw [hetime, hrtime]
  decide

/-- The first request keeps its response too late, and it is what is replayed. -/
theorem late_response_is_replayed : ∃ (before : List Event) (e : Event) (mid : List Event) (r last : Event)
    (kept : CachedResponse), ((Pool.opened Memory.empty ⟨0⟩).run (traffic brief "k") overtaken).history = before ++ e :: mid ++ r :: [] ∧
      Stores brief "k" e (cacheable (.plain 200 "second") "second") ∧
      last ∈ e :: mid ∧ Stores brief "k" last kept ∧ r.result = some (replay kept) := by
  obtain ⟨before, e, mid, r, hhist, hkept, hreplay, htime⟩ := overtaken_history
  obtain ⟨⟨early, last, late, kept, heq, hlast, _, hres⟩, _⟩ :=
    (last_kept_response_is_replayed brief "k" Memory.empty ⟨0⟩ overtaken).1 before e mid r [] _ _ hhist hkept hreplay htime
  exact ⟨before, e, mid, r, last, kept, hhist, hkept, heq ▸ by simp, hlast, hres⟩

/-- A response that was kept is not all that is replayed for its time. -/
theorem kept_response_is_overtaken : ¬ ∀ (limits : Limits) (key : String) (m : Memory) (now : Instant)
    (moves : List (Move Request Response)) (before : List Event) (e : Event) (mid : List Event) (r : Event)
    (after : List Event) (response cached : CachedResponse),
    ((Pool.opened m now).run (traffic limits key) moves).history = before ++ e :: mid ++ r :: after →
      Stores limits key e response → Replays (before ++ e :: mid) r cached →
      r.time.nanos < e.time.nanos + limits.cacheTtl.nanos → r.result = some (replay response) := by
  intro h
  obtain ⟨before, e, mid, r, hhist, hkept, hreplay, htime⟩ := overtaken_history
  have hres := h brief "k" Memory.empty ⟨0⟩ overtaken before e mid r [] _ _ hhist hkept hreplay htime
  injection congrArg Response.body (Option.some.inj (hreplay.result.symm.trans hres)) with hbytes
  have hsize := congrArg ByteArray.size hbytes
  revert hsize
  decide +kernel

end Coordination.Http
