import Coordination.Proofs.Http.Course

/-! # Who holds the key

A request that has acquired its key and has not come to an end is open. As long as only those settle by a response whose
claim is not over yet, the record under the key is the claim of every open request that is still on time. So there is at
most one such request, and after it has settled there is none until the record is over.
-/
namespace Coordination.Http
open Idempotency (CachedResponse IsClaim Limits claimRequest claimText responseText storeKey token_eq_of_claimText)
open Store (Cell)

/-- The request of the event acquired the key, by a claim with the given text. -/
def Acquires (limits : Limits) (key : String) (e : Event) (text : String) : Prop :=
  e.what = .answered (.store (claimRequest limits key text)) (.ok true)

/-- A response was kept under the key, with a status that fits its word. -/
structure Stores (limits : Limits) (key : String) (e : Event) (response : CachedResponse) : Prop where
  what : e.what = .answered (.store (.set (storeKey key) (responseText response) (some limits.cacheTtl))) (.ok ())
  fits : response.statusCode < 2 ^ 16

def Releases (key : String) (e : Event) (text : String) : Prop :=
  e.what = .answered (.store (.compareAndDelete (storeKey key) text)) (.ok true)

/-- The request acquired the key by the event and has not come to an end. -/
structure Open (limits : Limits) (key : String) (history : List Event) (d : Event) (text : String) : Prop where
  mem : d ∈ history
  acquires : Acquires limits key d text
  unfinished : ∀ f ∈ history, f.task = d.task → f.result = none

/-- The claim of the event is not over by the end of the history. -/
def OnTime (limits : Limits) (history : List Event) (d : Event) : Prop :=
  ∀ e ∈ history, e.time.nanos < d.time.nanos + limits.inFlightTtl.nanos

variable {limits : Limits} {key : String} {cells : String → Cell}

theorem text_eq_of_claimRequest {text text' : String}
    (h : Ask.store (claimRequest limits key text) = .store (claimRequest limits key text')) : text = text' := by
  injection h with hr
  injection hr

theorem Acquires.text_eq {e : Event} {text text' : String} (h : Acquires limits key e text)
    (h' : Acquires limits key e text') : text = text' := by
  injection h.symm.trans h' with hq
  exact text_eq_of_claimRequest hq

theorem Releases.text_eq {e : Event} {text text' : String} (h : Releases key e text) (h' : Releases key e text') :
    text = text' := by
  injection h.symm.trans h' with hq
  injection hq with hr
  injection hr

theorem Stores.text_eq {e : Event} {response response' : CachedResponse} (h : Stores limits key e response)
    (h' : Stores limits key e response') : responseText response = responseText response' := by
  injection h.what.symm.trans h'.what with hq
  injection hq with hr
  injection hr

theorem OnTime.of_concat {before : List Event} {d e : Event} (h : OnTime limits (before ++ [e]) d) :
    OnTime limits before d :=
  fun f hf => h f (List.mem_append_left [e] hf)

/-- What is open after an event was open before and did not come to an end by it, or was opened by it. -/
theorem Open.of_concat {before : List Event} {d e : Event} {text : String}
    (h : Open limits key (before ++ [e]) d text) :
    Open limits key before d text ∧ (d.task = e.task → e.result = none) ∨ d = e ∧ Acquires limits key e text := by
  rcases List.mem_append.1 h.mem with hd | hd
  · refine .inl ⟨⟨hd, h.acquires, fun f hf => h.unfinished f (List.mem_append_left [e] hf)⟩, ?_⟩
    intro htask
    exact h.unfinished e (by simp) htask.symm
  · cases List.mem_singleton.1 hd
    exact .inr ⟨rfl, h.acquires⟩

theorem asking {before : List Event} {e : Event} (he : e.Fits (traffic limits key) cells before) :
    Idempotency.checkKey key = .ok () ∧ ∃ q next, Asking limits key (answersOf e.task before) q next ∧
      e.Tells (traffic limits key) cells before q next := by
  obtain ⟨_, _, hadmits⟩ := he.admitted
  obtain ⟨q, next, hleads, htells⟩ := he.place
  have hkey := of_decide_eq_true hadmits
  exact ⟨checkKey_of_leads hkey hleads, q, next, asking_of_leads hkey hleads, htells⟩

theorem open_of_won {history : List Event} {i : Nat} (hends : ∀ f ∈ history, f.task = i → f.result = none) {t : String}
    {ms : Int} (hwon : (⟨.store (claimRequest limits key (claimText t ms)), .ok true⟩ : Answered Response) ∈
      answersOf i history) :
    ∃ d, Open limits key history d (claimText t ms) ∧ d.task = i := by
  obtain ⟨d, hd, htask, hwhat⟩ := mem_answersOf hwon
  exact ⟨d, ⟨hd, hwhat, by rwa [htask]⟩, htask⟩

theorem answersOf_acquires {before after : List Event} {d : Event}
    (h : Sound (traffic limits key) cells (before ++ d :: after)) {text : String} (hacq : Acquires limits key d text) :
    ∃ t ms, text = claimText t ms ∧ answersOf d.task before = [⟨.token, t⟩, ⟨.clock, ms⟩] := by
  obtain ⟨_, q, next, hasking, htells⟩ := asking (h before d after rfl)
  have hq := htells.question_eq hacq
  generalize answersOf d.task before = log at hasking ⊢
  cases hasking with
  | claiming t ms => exact ⟨t, ms, (text_eq_of_claimRequest hq).symm, rfl⟩
  | settling t ms w hr => rcases settlement_cases hr with rfl | ⟨_, rfl⟩ <;> cases hq
  | _ => cases hq

theorem token_of_acquires {history : List Event} (h : Sound (traffic limits key) cells history) {d : Event}
    (hd : d ∈ history) {text : String} (hacq : Acquires limits key d text) :
    ∃ t ms, text = claimText t ms ∧ ∃ x ∈ history, x.task = d.task ∧ x.what = .answered .token t := by
  obtain ⟨before, after, rfl⟩ := List.append_of_mem hd
  obtain ⟨t, ms, htext, hlog⟩ := answersOf_acquires h hacq
  have htoken : (⟨.token, t⟩ : Answered Response) ∈ answersOf d.task before := by
    rw [hlog]
    exact List.mem_cons_self
  obtain ⟨x, hx, htask, hwhat⟩ := mem_answersOf htoken
  exact ⟨t, ms, htext, x, List.mem_append_left _ hx, htask, hwhat⟩

theorem Open.isClaim {history : List Event} (h : Sound (traffic limits key) cells history) {d : Event} {text : String}
    (hd : Open limits key history d text) : IsClaim text := by
  obtain ⟨t, ms, htext, _⟩ := token_of_acquires h hd.mem hd.acquires
  exact ⟨t, ms, htext⟩

theorem task_eq_of_acquires {history : List Event} (h : Sound (traffic limits key) cells history) {d d' : Event}
    {text : String} (hd : d ∈ history) (hd' : d' ∈ history) (hacq : Acquires limits key d text)
    (hacq' : Acquires limits key d' text) : d.task = d'.task := by
  obtain ⟨t, ms, rfl, x, hx, hxtask, hxtoken⟩ := token_of_acquires h hd hacq
  obtain ⟨t', ms', htext, y, hy, hytask, hytoken⟩ := token_of_acquires h hd' hacq'
  obtain rfl := token_eq_of_claimText htext
  exact hxtask.symm.trans ((h.task_eq_of_token hx hy hxtoken hytoken).trans hytask)

theorem status_of_worked {history : List Event} (h : Sound (traffic limits key) cells history) {i : Nat} {w : Response}
    (hw : (⟨.work, w⟩ : Answered Response) ∈ answersOf i history) : 100 ≤ w.status ∧ w.status ≤ 999 := by
  obtain ⟨x, hx, _, hwhat⟩ := mem_answersOf hw
  obtain ⟨before, after, rfl⟩ := List.append_of_mem hx
  have hdue := (h before x after rfl).due
  rw [Event.Due, hwhat] at hdue
  obtain ⟨_, _, _, hworks⟩ := hdue
  exact of_decide_eq_true hworks

/-- All that an event can do to the record under the key. -/
inductive Deed (limits : Limits) (key : String) (before : List Event) (c : Cell) (e : Event) : Prop
  | acquire {t : String} {ms : Int} {u : Instant} (acquires : Acquires limits key e (claimText t ms))
    (free : c.live e.time = none) (due : u.nanos = e.time.nanos + limits.inFlightTtl.nanos)
    (onto : e.onto (storeKey key) c = some ⟨claimText t ms, some u⟩)
  | store {d : Event} {t : String} {ms : Int} {w : Response} {text : String} {u : Instant}
    (holder : Open limits key before d (claimText t ms)) (task : d.task = e.task)
    (worked : (⟨.work, w⟩ : Answered Response) ∈ answersOf e.task before)
    (stores : Stores limits key e (cacheable w text)) (result : e.result ≠ none)
    (due : u.nanos = e.time.nanos + limits.cacheTtl.nanos)
    (onto : e.onto (storeKey key) c = some ⟨responseText (cacheable w text), some u⟩)
  | release {d : Event} {t : String} {ms : Int} {entry : Store.Entry} (holder : Open limits key before d (claimText t ms))
    (task : d.task = e.task) (result : e.result ≠ none)
    (releases : Releases key e (claimText t ms))
    (live : c.live e.time = some entry)
    (value : entry.value = claimText t ms) (onto : e.onto (storeKey key) c = none)
  | stay (acquires : ∀ text, ¬ Acquires limits key e text) (stores : ∀ response, ¬ Stores limits key e response)
    (releases : ∀ text, ¬ Releases key e text) (onto : e.onto (storeKey key) c = c)

theorem deed_of_reads {before : List Event} {e : Event} {q : Ask} {next : q.Answer Response → Program Response Response}
    (h : e.Tells (traffic limits key) cells before q next) (hq : ∀ r, q = .store r → r.writes = false) (c : Cell) :
    Deed limits key before c e := by
  refine .stay ?_ ?_ ?_ (h.onto_eq hq ..)
  · intro text hacq
    cases hq _ (h.question_eq hacq)
  · intro response hstores
    cases hq _ (h.question_eq hstores.what)
  · intro text hreleases
    cases hq _ (h.question_eq hreleases)

theorem deed {before after : List Event} {e : Event} (h : Sound (traffic limits key) cells (before ++ e :: after)) :
    Deed limits key before (held (storeKey key) (cells (storeKey key)) before) e := by
  obtain ⟨_, q, next, hasking, htells⟩ := asking (h before e after rfl)
  generalize hlog : answersOf e.task before = log at hasking
  cases hasking with
  | start _ => exact deed_of_reads htells (by simp) _
  | drawn t _ => exact deed_of_reads htells (by simp) _
  | looking t ms => exact deed_of_reads htells (by simp [Store.Request.writes]) _
  | working t ms => exact deed_of_reads htells (by simp) _
  | claiming t ms =>
    rcases htells.setIfAbsent traffic_owns with ⟨u, hwhat, _, hfree, hu, honto⟩ | ⟨o, hwhat, _, ho, hsame⟩
    · exact .acquire hwhat hfree hu honto
    · refine .stay ?_ ?_ ?_ hsame
      · intro text hacq
        have htext := text_eq_of_claimRequest (htells.question_eq hacq)
        exact Event.not_answered_of_served hwhat ho (htext ▸ hacq)
      · intro response hstores
        cases htells.question_eq hstores.what
      · intro text hreleases
        cases htells.question_eq hreleases
  | settling t ms w hr =>
    have hwon : (⟨.store (claimRequest limits key (claimText t ms)), .ok true⟩ : Answered Response) ∈
        answersOf e.task before := by
      rw [hlog]
      exact List.mem_append_left _ (mem_wonLog t ms)
    have hworked : (⟨.work, w⟩ : Answered Response) ∈ answersOf e.task before := by
      rw [hlog]
      simp
    obtain ⟨d, hopen, htask⟩ := open_of_won h.result_eq_none_before hwon
    have hfits : w.status < 2 ^ 16 := by
      have hvalid := status_of_worked h.of_append hworked
      omega
    rcases settlement_cases hr with rfl | ⟨text, rfl⟩
    · rcases htells.compareAndDelete traffic_owns with ⟨entry, hwhat, hres, hlive, hvalue, honto⟩ | ⟨hwhat, _, _, hsame⟩
      · exact .release hopen htask (by simp [hres]) hwhat hlive hvalue honto
      · refine .stay ?_ ?_ ?_ hsame
        · intro text hacq
          cases htells.question_eq hacq
        · intro response hstores
          cases htells.question_eq hstores.what
        · intro text hreleases
          injection htells.question_eq hreleases with hdelete
          injection hdelete with _ htext
          rw [Releases, ← htext] at hreleases
          cases hwhat.symm.trans hreleases
    · rcases htells.set traffic_owns with ⟨u, hwhat, hres, hu, honto⟩ | ⟨o, hwhat, _, ho, hsame⟩
      · exact .store hopen htask hworked ⟨hwhat, hfits⟩ (by simp [hres]) hu honto
      · refine .stay ?_ ?_ ?_ hsame
        · intro text hacq
          cases htells.question_eq hacq
        · intro response hstores
          -- The texts are the same, so that they need not be compared any more.
          injection htells.question_eq hstores.what with hset
          injection hset with _ htext
          have hkept := hstores.what
          rw [← htext] at hkept
          exact Event.not_answered_of_served hwhat ho hkept
        · intro text hreleases
          cases htells.question_eq hreleases

theorem result_of_stores {before after : List Event} {e : Event}
    (h : Sound (traffic limits key) cells (before ++ e :: after)) {response : CachedResponse}
    (hkept : Stores limits key e response) : e.result ≠ none := by
  cases deed h with
  | acquire hacq => cases hacq.symm.trans hkept.what
  | store _ _ _ _ hres => exact hres
  | release _ _ hres => exact hres
  | stay _ hno => exact absurd hkept (hno response)

/-- Whoever keeps a response had acquired the key, and the response is there for its time. -/
theorem kept_response {before after : List Event} {e : Event}
    (h : Sound (traffic limits key) cells (before ++ e :: after)) {response : CachedResponse}
    (hkept : Stores limits key e response) :
    (∃ d text, Open limits key before d text ∧ d.task = e.task) ∧
      ∃ u : Instant, u.nanos = e.time.nanos + limits.cacheTtl.nanos ∧
        held (storeKey key) (cells (storeKey key)) (before ++ [e]) = some ⟨responseText response, some u⟩ := by
  rw [held_concat]
  cases deed h with
  | acquire hacq => cases hacq.symm.trans hkept.what
  | release _ _ _ hwhat => cases hwhat.symm.trans hkept.what
  | stay _ hno => exact absurd hkept (hno response)
  | store hopen htask _ hkept' _ hu honto =>
    exact ⟨⟨_, _, hopen, htask⟩, _, hu, by rw [honto, hkept.text_eq hkept']⟩

theorem not_open_responseText {history : List Event} (h : Sound (traffic limits key) cells history)
    (response : CachedResponse) (d : Event) : ¬ Open limits key history d (responseText response) :=
  fun hopen => Idempotency.not_isClaim_responseText response (hopen.isClaim h)

/-- No response is kept by a request whose claim is over by then. -/
def StoresOnTime (limits : Limits) (key : String) (history : List Event) : Prop :=
  ∀ e ∈ history, ∀ response, Stores limits key e response → ∀ d ∈ history, ∀ text, Acquires limits key d text →
    d.task = e.task → e.time.nanos < d.time.nanos + limits.inFlightTtl.nanos

theorem StoresOnTime.of_append {before after : List Event} (h : StoresOnTime limits key (before ++ after)) :
    StoresOnTime limits key before :=
  fun e he response hs d hd => h e (List.mem_append_left after he) response hs d (List.mem_append_left after hd)

theorem StoresOnTime.onTime {before : List Event} {e d : Event} (hstores : StoresOnTime limits key (before ++ [e]))
    (he : e.Fits (traffic limits key) cells before) {response : CachedResponse} (hkept : Stores limits key e response)
    {text : String} (hopen : Open limits key before d text) (htask : d.task = e.task) : OnTime limits before d := by
  intro f hf
  have hd : d ∈ before ++ [e] := List.mem_append_left [e] hopen.mem
  have hlt := hstores e (by simp) response hkept d hd text hopen.acquires htask
  have hle := he.later f hf
  omega

/-- If responses are kept on time, the record is the claim of every open request that is on time. -/
theorem claim_held {history : List Event} (h : Sound (traffic limits key) cells history)
    (hstores : StoresOnTime limits key history) {d : Event} {text : String} (hd : Open limits key history d text)
    (htime : OnTime limits history d) :
    held (storeKey key) (cells (storeKey key)) history = some ⟨text, some (d.time.advance limits.inFlightTtl)⟩ := by
  revert d text
  refine h.induction (P := fun history => StoresOnTime limits key history → ∀ {d : Event} {text : String},
    Open limits key history d text → OnTime limits history d →
      held (storeKey key) (cells (storeKey key)) history = some ⟨text, some (d.time.advance limits.inFlightTtl)⟩)
    ?_ ?_ hstores
  · intro _ d text hd
    cases hd.mem
  · intro before e hbefore he ih hstores d text hd htime
    have hafter := hbefore.concat he
    have held_before : ∀ {d : Event} {text : String}, Open limits key before d text → OnTime limits before d →
        held (storeKey key) (cells (storeKey key)) before = some ⟨text, some (d.time.advance limits.inFlightTtl)⟩ :=
      ih hstores.of_append
    rw [held_concat]
    rcases hd.of_concat with ⟨hopen, hends⟩ | ⟨rfl, hacq⟩
    · have hcell := held_before hopen htime.of_concat
      have hlive : (held (storeKey key) (cells (storeKey key)) before).live e.time =
          some ⟨text, some (d.time.advance limits.inFlightTtl)⟩ := by
        rw [hcell, Cell.live_until]
        exact if_pos (htime e (by simp))
      -- Whoever settles the same claim is the same request, which has come to its end then.
      have other : ∀ {d' : Event}, Open limits key before d' text → d'.task = e.task → e.result = none := by
        intro d' hopen' htask
        exact hends ((task_eq_of_acquires hbefore hopen.mem hopen'.mem hopen.acquires hopen'.acquires).trans htask)
      cases deed hafter with
      | acquire _ hfree =>
        rw [hlive] at hfree
        cases hfree
      | @store d' t ms w _ _ hopen' htask _ hkept hres =>
        have hcell' := held_before hopen' (hstores.onTime he hkept hopen' htask)
        have htext : claimText t ms = text := congrArg Store.Entry.value (Option.some.inj (hcell'.symm.trans hcell))
        exact absurd (other (htext ▸ hopen') htask) hres
      | release hopen' htask hres _ hentry hvalue =>
        cases hlive.symm.trans hentry
        have htext : text = _ := hvalue
        exact absurd (other (htext ▸ hopen') htask) hres
      | stay _ _ _ honto => exact honto.trans hcell
    · cases deed hafter with
      | @acquire t ms u hacq' _ hu honto =>
        rw [honto, hacq.text_eq hacq', show u = d.time.advance limits.inFlightTtl by cases u; cases hu; rfl]
      | store _ _ _ _ hres => exact absurd (hd.unfinished d (by simp) rfl) hres
      | release _ _ hres => exact absurd (hd.unfinished d (by simp) rfl) hres
      | stay hno => exact absurd hacq (hno text)

/-- At most one request is open on time. -/
theorem task_eq_of_open {history : List Event} (h : Sound (traffic limits key) cells history)
    (hstores : StoresOnTime limits key history) {d d' : Event} {text text' : String}
    (hd : Open limits key history d text) (hd' : Open limits key history d' text') (htime : OnTime limits history d)
    (htime' : OnTime limits history d') : d.task = d'.task := by
  have hcell := claim_held h hstores hd htime
  have hcell' := claim_held h hstores hd' htime'
  have htext : text' = text := congrArg Store.Entry.value (Option.some.inj (hcell'.symm.trans hcell))
  exact task_eq_of_acquires h hd.mem hd'.mem hd.acquires (htext ▸ hd'.acquires)

/-- No open request is on time. -/
def Calm (limits : Limits) (key : String) (history : List Event) : Prop :=
  ∀ d text, Open limits key history d text → ¬ OnTime limits history d

theorem stays_step {before after : List Event} {e : Event} (h : Sound (traffic limits key) cells (before ++ e :: after))
    {value : String} {deadline : Instant}
    (hcell : held (storeKey key) (cells (storeKey key)) before = some ⟨value, some deadline⟩)
    (htime : e.time.nanos < deadline.nanos) (hfree : ∀ d, ¬ Open limits key before d value)
    (hstores : ∀ response, ¬ Stores limits key e response) :
    held (storeKey key) (cells (storeKey key)) (before ++ [e]) = some ⟨value, some deadline⟩ ∧
      ∀ text, ¬ Acquires limits key e text := by
  have hlive : (held (storeKey key) (cells (storeKey key)) before).live e.time = some ⟨value, some deadline⟩ := by
    rw [hcell, Cell.live_until, if_pos htime]
  rw [held_concat]
  cases deed h with
  | acquire _ hnone =>
    rw [hlive] at hnone
    cases hnone
  | store _ _ _ hkept => exact absurd hkept (hstores _)
  | release hopen _ _ _ hentry hvalue =>
    cases hlive.symm.trans hentry
    have htext : value = _ := hvalue
    exact absurd (htext ▸ hopen) (hfree _)
  | stay hno _ _ honto => exact ⟨honto.trans hcell, hno⟩

theorem not_open_concat {before : List Event} {e : Event} {value : String} (hfree : ∀ d, ¬ Open limits key before d value)
    (hno : ∀ text, ¬ Acquires limits key e text) (d : Event) : ¬ Open limits key (before ++ [e]) d value := by
  intro hopen
  rcases hopen.of_concat with ⟨hbefore, _⟩ | ⟨_, hacq⟩
  · exact hfree d hbefore
  · exact hno value hacq

theorem stays {before mid : List Event} (h : Sound (traffic limits key) cells (before ++ mid))
    {value : String} {deadline : Instant}
    (hcell : held (storeKey key) (cells (storeKey key)) before = some ⟨value, some deadline⟩)
    (htime : ∀ e ∈ mid, e.time.nanos < deadline.nanos) (hfree : ∀ d, ¬ Open limits key before d value)
    (hstores : ∀ e ∈ mid, ∀ response, ¬ Stores limits key e response) :
    held (storeKey key) (cells (storeKey key)) (before ++ mid) = some ⟨value, some deadline⟩ := by
  induction mid generalizing before with
  | nil => rwa [List.append_nil]
  | cons e mid ih =>
    obtain ⟨hetime, hmtime⟩ := List.forall_mem_cons.1 htime
    obtain ⟨hestores, hmstores⟩ := List.forall_mem_cons.1 hstores
    obtain ⟨hcell', hno⟩ := stays_step h hcell hetime hfree hestores
    rw [List.append_cons] at h ⊢
    exact ih h hcell' hmtime (not_open_concat hfree hno) hmstores

theorem Calm.concat {before : List Event} {e : Event} (h : Calm limits key before)
    (hno : ∀ text, ¬ Acquires limits key e text) : Calm limits key (before ++ [e]) := by
  intro d text hopen htime
  rcases hopen.of_concat with ⟨hbefore, _⟩ | ⟨_, hacq⟩
  · exact h d text hbefore htime.of_concat
  · exact hno text hacq

theorem calm_of_finished {before after : List Event} {e : Event}
    (h : Sound (traffic limits key) cells (before ++ e :: after)) (hstores : StoresOnTime limits key before) {d : Event}
    {text : String} (hopen : Open limits key before d text) (htask : d.task = e.task) (htime : OnTime limits before d)
    (hres : e.result ≠ none) : Calm limits key (before ++ [e]) := by
  intro d' text' hopen' htime'
  rcases hopen'.of_concat with ⟨hbefore, hends⟩ | ⟨rfl, _⟩
  · have hsame := task_eq_of_open h.of_append hstores hbefore hopen htime'.of_concat htime
    exact hres (hends (hsame.trans htask))
  · exact hres (hopen'.unfinished d' (by simp) rfl)

theorem Calm.not_stores {before after : List Event} {e : Event}
    (h : Sound (traffic limits key) cells (before ++ e :: after)) (hcalm : Calm limits key before)
    (hstores : StoresOnTime limits key (before ++ [e])) (response : CachedResponse) :
    ¬ Stores limits key e response := by
  intro hkept
  cases deed h with
  | acquire hacq => cases hacq.symm.trans hkept.what
  | store hopen htask => exact hcalm _ _ hopen (hstores.onTime (h before e after rfl) hkept hopen htask)
  | release _ _ _ hwhat => cases hwhat.symm.trans hkept.what
  | stay _ hno => exact hno response hkept

/-- After a calm moment a record stays for its time, and nobody keeps a response or gets on time meanwhile. -/
theorem Calm.stays {before mid : List Event} (h : Sound (traffic limits key) cells (before ++ mid))
    (hcalm : Calm limits key before) (hstores : StoresOnTime limits key (before ++ mid)) {value : String}
    {deadline : Instant} (hcell : held (storeKey key) (cells (storeKey key)) before = some ⟨value, some deadline⟩)
    (htime : ∀ e ∈ mid, e.time.nanos < deadline.nanos) (hfree : ∀ d, ¬ Open limits key before d value) :
    Calm limits key (before ++ mid) ∧ ∀ e ∈ mid, ∀ response, ¬ Stores limits key e response := by
  induction mid generalizing before with
  | nil => exact ⟨by rwa [List.append_nil], by simp⟩
  | cons e mid ih =>
    obtain ⟨hetime, hmtime⟩ := List.forall_mem_cons.1 htime
    have hfirst : StoresOnTime limits key (before ++ [e]) := by
      rw [List.append_cons] at hstores
      exact hstores.of_append
    have hestores := hcalm.not_stores h hfirst
    obtain ⟨hcell', hno⟩ := stays_step h hcell hetime hfree hestores
    rw [List.append_cons] at h hstores ⊢
    obtain ⟨hcalm', hmstores⟩ := ih h (hcalm.concat hno) hstores hcell' hmtime (not_open_concat hfree hno)
    exact ⟨hcalm', List.forall_mem_cons.2 ⟨hestores, hmstores⟩⟩

end Coordination.Http
