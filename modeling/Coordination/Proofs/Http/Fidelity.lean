import Coordination.Proofs.Http.Replay
import Coordination.Proofs.Turn.Play

/-! # What a replay repeats

A response that is kept is taken apart into its status, its body as a text and its content type as a text, and a replay
puts these together again: nothing is lost but the other headers, and a content type that is not visible. As long as the
response is kept, a request with the key gets to such a replay in four steps, whoever runs beside it: it draws a token,
reads the clock, is told that the key is taken and finds the response.
-/
namespace Coordination.Http
open Idempotency (CachedResponse Limits afterClaim checkKey claimRequest claimText responseText seen standingOf_responseText
  storeKey)
open Store (Cell Memory)
open Text.Utf8 (character fromUTF8?_toUTF8 toUTF8_characters toUTF8_of_fromUTF8?)

theorem headerValue?_characters {value : ByteArray} (h : isVisible value = true) :
    headerValue? (characters value) = some value := by
  have hbyte : ∀ b ∈ value.toList, 0x20 ≤ b ∧ b ≤ 0x7e ∨ b = 0x09 := by
    intro b hb
    simpa using List.all_eq_true.1 h b hb
  have hascii : ∀ b ∈ value.toList, b.toNat < 128 := by
    intro b hb
    rcases hbyte b hb with ⟨_, hle⟩ | rfl
    · exact Nat.lt_of_le_of_lt (UInt8.le_iff_toNat_le.1 hle) (by decide)
    · decide
  have hvalid : (value.toList.all fun b => (0x20 ≤ b && b != 0x7f) || b == 0x09) = true := by
    refine List.all_eq_true.2 fun b hb => ?_
    rcases hbyte b hb with ⟨hge, hle⟩ | rfl
    · have hne : b ≠ 0x7f := by
        rintro rfl
        exact absurd hle (by decide)
      simp [hge, hne]
    · decide
  rw [headerValue?, characters, toUTF8_characters hascii, if_pos hvalid]

theorem bind_visibleText? (value? : Option ByteArray) :
    (value?.bind visibleText?).bind headerValue? = value?.filter isVisible := by
  cases value? with
  | none => rfl
  | some value =>
    rw [Option.bind_some, visibleText?_eq]
    cases hvisible : isVisible value with
    | true => simp [headerValue?_characters hvisible, Option.filter, hvisible]
    | false => simp [Option.filter, hvisible]

/-- A response with the status and the body of the original, marked as a replay, and of its headers with the first content
type alone, if that is visible. -/
structure Repeats (original response : Response) : Prop where
  status : response.status = original.status
  body : ∃ bytes, original.body = .whole bytes ∧ response.body = .whole bytes
  headers : response.headers = (replayedHeader, "true".toUTF8) ::
    ((original.headers.get? "content-type").filter isVisible).toList.map fun value => ("content-type", value)

theorem replay_repeats {w : Response} {bytes : ByteArray} {text : String} (hstatus : 100 ≤ w.status ∧ w.status ≤ 999)
    (hbody : w.body = .whole bytes) (htext : String.fromUTF8? bytes = some text) :
    Repeats w (replay (cacheable w text)) where
  status := if_pos hstatus
  body := ⟨bytes, hbody, congrArg Body.whole (toUTF8_of_fromUTF8? htext)⟩
  headers := by
    rw [← bind_visibleText?]
    have hother : Headers.sameName "content-type" replayedHeader = false := by decide
    show Headers.insert _ _ _ = _
    simp only [Headers.insert, Headers.remove, cacheable]
    cases ((w.headers.get? "content-type").bind visibleText?).bind headerValue? with
    | none => rfl
    | some value => simp [hother]

/-- By the event a request came to its end whose handler had come to a response that can be kept. -/
structure Delivers (limits : Limits) (before : List Event) (e : Event) (w : Response) : Prop where
  worked : ∃ f ∈ before, f.task = e.task ∧ f.what = .answered .work w
  ended : e.result ≠ none
  status : w.isServerError = false
  body : ∃ bytes, w.body = .whole bytes ∧ Keepable limits bytes

variable {limits : Limits} {key : String} {cells : String → Cell}

theorem stores_of_delivers {before after : List Event} {e : Event}
    (h : Sound (traffic limits key) cells (before ++ e :: after)) (hlong : limits.cacheTtl.millis ≠ 0) {w : Response}
    (hw : Delivers limits before e w) :
    ∃ response, Stores limits key e response ∧ Repeats w (replay response) := by
  obtain ⟨bytes, hbody, hsize, hutf⟩ := hw.body
  obtain ⟨text, htext⟩ := Option.isSome_iff_exists.1 hutf
  obtain ⟨f, hf, htask, hwhat⟩ := hw.worked
  have hworked : (⟨.work, w⟩ : Answered Response) ∈ answersOf e.task before := htask ▸ answersOf_mem hf hwhat
  have hstatus := status_of_worked h.of_append hworked
  refine ⟨cacheable w text, ⟨?_, ?_⟩, replay_repeats hstatus hbody htext⟩
  · obtain ⟨_, q, next, hasking, htells⟩ := asking (h before e after rfl)
    generalize answersOf e.task before = log at hasking hworked
    cases hasking with
    | settling t ms w' hr =>
      obtain rfl : w = w' := by simpa [wonLog] using hworked
      rw [settlement_of_keepable hw.status hbody htext hsize] at hr
      cases hr
      obtain ⟨o, hserved, hres, hserve⟩ := htells
      have ho := hserve _ traffic_owns rfl
      cases hends : e.time.add? limits.cacheTtl with
      | none =>
        rw [Cell.serve_set_of_endless hlong hends] at ho
        subst ho
        exact absurd hres hw.ended
      | some u =>
        rw [Cell.serve_set_of_fits hlong (hends ▸ rfl)] at ho
        subst ho
        exact hserved
    | _ => simp [wonLog] at hworked
  · show w.status < 2 ^ 16
    omega

theorem inFlightTtl_of_acquires {history : List Event} (h : Sound (traffic limits key) cells history) {d : Event}
    (hd : d ∈ history) {text : String} (hacq : Acquires limits key d text) : limits.inFlightTtl.millis ≠ 0 := by
  obtain ⟨before, after, rfl⟩ := List.append_of_mem hd
  have hdue := (h before d after rfl).due
  rw [Event.Due, hacq] at hdue
  obtain ⟨_, _, _, hserve⟩ := hdue
  have hanswer := hserve _ traffic_owns rfl
  apply Store.checkTtl_eq_ok.1
  cases hcheck : (claimRequest limits key text).checkTtl with
  | ok _ => exact hcheck
  | error failure =>
    rw [Cell.serve, hcheck] at hanswer
    cases hanswer

/-- Nobody acquires the key while a response is kept. -/
theorem not_acquires_while_kept {before mid : List Event} {e : Event}
    (h : Sound (traffic limits key) cells (before ++ e :: mid)) {response : CachedResponse}
    (hkept : Stores limits key e response) (hlast : ∀ d ∈ mid, ∀ other, ¬ Stores limits key d other)
    (htime : ∀ d ∈ mid, d.time.nanos < e.time.nanos + limits.cacheTtl.nanos) :
    ∀ d ∈ mid, ∀ text, ¬ Acquires limits key d text := by
  intro d hd text hacq
  have hbefore := htime d hd
  obtain ⟨early, late, rfl⟩ := List.append_of_mem hd
  rw [← List.cons_append, ← List.append_assoc] at h
  obtain ⟨u, hlive⟩ := live_while_kept h hkept (fun f hf => hlast f (List.mem_append_left _ hf)) hbefore
  cases deed h with
  | acquire _ hfree => cases hlive.symm.trans hfree
  | store _ _ _ hkept' => cases hkept'.what.symm.trans hacq
  | release _ _ _ hreleases => cases hreleases.symm.trans hacq
  | stay hno => exact hno text hacq

/-- All that can happen, while a response is kept, to a request that did not acquire the key: it gets to the record without
its handler having run, finds the response there and is answered by it. -/
inductive Heeds (limits : Limits) (key : String) (w : Response) (r : Event) : Prop
  | token (t : String) (what : r.what = .answered .token t) (result : r.result = none)
  | clock (ms : Int) (what : r.what = .answered .clock ms) (result : r.result = none)
  | taken (text : String) (what : r.what = .answered (.store (claimRequest limits key text)) (.ok false))
    (result : r.result = none)
  | repeated (text response) (what : r.what = .answered (.store (.get (storeKey key))) (.ok (some text)))
    (result : r.result = some response) (repeats : Repeats w response)

theorem heeds {before mid after : List Event} {e r : Event}
    (h : Sound (traffic limits key) cells (before ++ e :: mid ++ r :: after)) {w : Response} {response : CachedResponse}
    (hkept : Stores limits key e response) (hrepeats : Repeats w (replay response))
    (hlast : ∀ d ∈ mid, ∀ other, ¬ Stores limits key d other)
    (hother : ∀ d ∈ before, d.task = r.task → ∀ text, ¬ Acquires limits key d text)
    (htime : r.time.nanos < e.time.nanos + limits.cacheTtl.nanos) : Heeds limits key w r := by
  obtain ⟨⟨d, text, hopen, _⟩, _⟩ := kept_response h.of_append hkept
  have hclaims := inFlightTtl_of_acquires h.of_append (List.mem_append_left _ hopen.mem) hopen.acquires
  obtain ⟨u, hlive⟩ := live_while_kept h hkept hlast htime
  -- It has not acquired the key since either.
  have hnever : ∀ t ms, (⟨.store (claimRequest limits key (claimText t ms)), .ok true⟩ : Answered Response) ∉
      answersOf r.task (before ++ e :: mid) := by
    intro t ms hwon
    obtain ⟨x, hx, htask, hacq⟩ := mem_answersOf hwon
    rcases List.mem_append.1 hx with hx | hx
    · exact hother x hx htask _ hacq
    · rcases List.mem_cons.1 hx with rfl | hx
      · cases hkept.what.symm.trans hacq
      · exact not_acquires_while_kept h.of_append hkept hlast (lt_of_later h htime) x hx _ hacq
  obtain ⟨_, q, next, hasking, htells⟩ := asking (h _ r after rfl)
  generalize hlog : answersOf r.task (before ++ e :: mid) = log at hasking
  cases hasking with
  | start hnone =>
    obtain ⟨t, hwhat, hres, _⟩ := htells
    exact .token t hwhat (hres.trans (hnone t))
  | drawn _ hnone =>
    obtain ⟨ms, hwhat, hres, _⟩ := htells
    exact .clock ms hwhat (hres.trans (hnone ms))
  | claiming t ms =>
    obtain ⟨o, hwhat, hres, hserve⟩ := htells
    have ho := hserve _ traffic_owns rfl
    rw [Cell.serve_setIfAbsent_of_live hclaims hlive] at ho
    subst ho
    exact .taken _ hwhat hres
  | looking t ms =>
    obtain ⟨o, hwhat, hres, hserve⟩ := htells
    have ho : (.ok (.ok (((held (storeKey key) (cells (storeKey key)) (before ++ e :: mid)).live r.time).map
        Store.Entry.value)) : Except Store.Crash (Except Failure (Option String))) = o := hserve _ traffic_owns rfl
    rw [hlive] at ho
    subst ho
    refine .repeated _ _ hwhat ?_ hrepeats
    rw [hres, resultOf, Option.map_some, seen, standingOf_responseText hkept.fits]
    rfl
  | working t ms => exact absurd (hlog ▸ mem_wonLog t ms) (hnever t ms)
  | settling t ms w' hr => exact absurd (hlog ▸ List.mem_append_left _ (mem_wonLog t ms)) (hnever t ms)

/-- A request that comes alone while a response is kept is answered by a replay, whatever its handler is. -/
theorem play_runOnce {m : Memory} {t : Turn} {request : Request} (hkey : request.key? = some key)
    (hvalid : checkKey key = .ok ()) (hclaims : limits.inFlightTtl.millis ≠ 0) {response : CachedResponse}
    (hfits : response.statusCode < 2 ^ 16) {u : Instant}
    (hshows : m.Shows t.now (storeKey key) (some ⟨responseText response, some u⟩)) (htime : t.now.nanos < u.nanos) :
    ∃ m', ∀ next : Program Unit Response,
      t.play (runOnce limits request next) m [] = (.ok (replay response), m', []) := by
  have hlive : Cell.live (some ⟨responseText response, some u⟩) t.now = some ⟨responseText response, some u⟩ := by
    rw [Cell.live_until, if_pos htime]
  obtain ⟨m', hclaim, hshows', _⟩ := hshows.serve (r := claimRequest limits key (claimText t.token t.wallMs)) rfl
    (Cell.serve_setIfAbsent_of_live hclaims hlive _ _)
  have hcheck : t.play (limits.check key).run m [] =
      (.ok (.ok (.cached response)), (m'.serve t.now (.get (storeKey key))).2, []) := by
    rw [Idempotency.run_check, hvalid, Turn.play_token, Turn.play_clock, Turn.play_served hclaim, afterClaim, Turn.play_get,
      hshows' t.now (Nat.le_refl _), hlive, Option.map_some, seen, standingOf_responseText hfits, Turn.play_done]
  refine ⟨(m'.serve t.now (.get (storeKey key))).2, fun next => ?_⟩
  obtain ⟨value, hvalue, htext⟩ := Option.bind_eq_some_iff.1 hkey
  rw [runOnce, hvalue]
  simp only [htext]
  refine (Turn.play_bind t m [] (limits.check key).run _).trans ?_
  rw [hcheck]
  rfl

/-- Whatever requests with one key and others do and in whatever order, and whatever the handler comes to: as long as the
response that a request got lasts and no other one is kept, a request that did not acquire the key before has nothing done
for it but to be answered by a replay that repeats this response, and one that comes alone is answered so at once, whatever
its handler is. -/
theorem response_is_repeated (limits : Limits) (key : String) (m : Memory) (now : Instant)
    (moves : List (Move Request Response)) (hlong : limits.cacheTtl.millis ≠ 0) :
    let p := (Pool.opened m now).run (traffic limits key) moves
    (∀ before e mid r after w, p.history = before ++ e :: mid ++ r :: after → Delivers limits before e w →
      (∀ d ∈ mid, ∀ other, ¬ Stores limits key d other) →
      (∀ d ∈ before, d.task = r.task → ∀ text, ¬ Acquires limits key d text) →
      r.time.nanos < e.time.nanos + limits.cacheTtl.nanos → Heeds limits key w r) ∧
    ∀ before e mid w, p.history = before ++ e :: mid → Delivers limits before e w →
      (∀ d ∈ mid, ∀ other, ¬ Stores limits key d other) → p.now.nanos < e.time.nanos + limits.cacheTtl.nanos →
      ∀ request : Request, request.key? = some key → ∀ t : Turn, t.now = p.now →
        ∃ response m', Repeats w response ∧
          ∀ next, t.play (runOnce limits request next) p.memory [] = (.ok response, m', []) := by
  intro p
  have hp : p.Consistent (traffic limits key) m.entries.find? := Pool.consistent_found _ m now moves
  have hsound := hp.sound
  constructor
  · intro before e mid r after w hhist hw hlast hother htime
    rw [hhist] at hsound
    obtain ⟨response, hkept, hrepeats⟩ := stores_of_delivers hsound.of_append hlong hw
    exact heeds hsound hkept hrepeats hlast hother htime
  · intro before e mid w hhist hw hlast htime request hkey t hnow
    rw [hhist] at hsound
    obtain ⟨response, hkept, hrepeats⟩ := stores_of_delivers hsound hlong hw
    obtain ⟨⟨d, text, hopen, _⟩, _⟩ := kept_response hsound hkept
    have hclaims := inFlightTtl_of_acquires hsound (List.mem_append_left _ hopen.mem) hopen.acquires
    have hpast : ∀ f ∈ mid, f.time.nanos < e.time.nanos + limits.cacheTtl.nanos := by
      intro f hf
      have hle := hp.past f (hhist ▸ List.mem_append_right before (List.mem_cons_of_mem e hf))
      omega
    obtain ⟨u, hu, hheld⟩ := held_while_kept hsound hkept hlast hpast
    have hshows := hp.shows _ traffic_owns
    rw [hhist, hheld, ← hnow] at hshows
    have hvalid := (asking (hsound before e mid rfl)).1
    obtain ⟨m', hplay⟩ := play_runOnce hkey hvalid hclaims hkept.fits hshows (by rw [hnow]; omega)
    exact ⟨replay response, m', hrepeats, hplay⟩

def repeated : List (Move Request Response) :=
  .call keyed :: ([.token 0 "a", .clock 0 0, .store 0, .beginWork 0, .endWork 0 (.plain 404 "none"), .store 0] ++
    .call keyed :: [.token 1 "b", .clock 1 1, .store 1, .store 1])

theorem second_request_is_answered : brief.cacheTtl.millis ≠ 0 ∧
    ∃ before e mid r response, ((Pool.opened Memory.empty ⟨0⟩).run (traffic brief "k") repeated).history =
      before ++ e :: mid ++ r :: [] ∧ Delivers brief before e (.plain 404 "none") ∧ r.result = some response ∧
      Repeats (.plain 404 "none") response := by
  have hlong : brief.cacheTtl.millis ≠ 0 := by decide
  obtain ⟨t, c, d, b, f, e, t', c', d', r, hhist, hf, hres, hother, hlast, hwhat, htime⟩ :
      ∃ t c d b f e t' c' d' r : Event, ((Pool.opened Memory.empty ⟨0⟩).run (traffic brief "k") repeated).history =
          [t, c, d, b, f] ++ e :: [t', c', d'] ++ r :: [] ∧
        (f.task = e.task ∧ f.what = .answered .work (.plain 404 "none")) ∧ e.result.isSome = true ∧
        (∀ x ∈ [t, c, d, b, f], x.task ≠ r.task) ∧
        (∀ x ∈ [t', c', d'], ∀ text, x.what ≠ .answered (.store (.set (storeKey "k") text (some brief.cacheTtl))) (.ok ())) ∧
        r.what = .answered (.store (.get (storeKey "k")))
          (.ok (some (responseText (cacheable (.plain 404 "none") "none")))) ∧
        r.time.nanos < e.time.nanos + brief.cacheTtl.nanos := by
    rw [repeated, run_call key?_keyed, Pool.run_append, run_call key?_keyed]
    exact ⟨_, _, _, _, _, _, _, _, _, _, rfl, ⟨rfl, rfl⟩, rfl, by simp, by simp, rfl, by decide⟩
  have hw : Delivers brief [t, c, d, b, f] e (.plain 404 "none") :=
    ⟨⟨f, by simp, hf⟩, Option.isSome_iff_ne_none.1 hres, by decide, _, rfl, by decide +kernel,
      Option.isSome_of_eq_some (fromUTF8?_toUTF8 "none")⟩
  have hheeds := (response_is_repeated brief "k" Memory.empty ⟨0⟩ repeated hlong).1 _ e _ r [] _ hhist hw
    (fun x hx _ hkept => hlast x hx _ hkept.what) (fun x hx htask => absurd htask (hother x hx)) htime
  cases hheeds with
  | repeated text response _ hres hrepeats => exact ⟨hlong, _, e, _, r, response, hhist, hw, hres, hrepeats⟩
  | token _ hwhat' => cases hwhat'.symm.trans hwhat
  | clock _ hwhat' => cases hwhat'.symm.trans hwhat
  | taken _ hwhat' => cases hwhat'.symm.trans hwhat

end Coordination.Http
