import Coordination.Proofs.Remote.Welcome

/-! # Round trips to a server

Whatever arrives from a server, a request succeeds only with the answer that the last reply to its command gives. A
conversation in which something is lost leaves the store unavailable, and every other failure is one of the store's answers.
Who is not let in sends no command, and a lifetime that is too short is refused before anything is sent.
-/
namespace Coordination.Remote
open Store (Request)

/-- The command that carries a request; a script is called by its digest. -/
def dataCommand : Request → Command
  | .ping => ["PING"]
  | .setIfAbsent key value ttl => ["SET", key, value, "NX", "PX", ttlText ttl]
  | .get key => ["GET", key]
  | .set key value none => ["SET", key, value]
  | .set key value (some ttl) => ["SET", key, value, "PX", ttlText ttl]
  | .delete key => ["DEL", key]
  | .increment key amount none => ["INCRBY", key, toString amount]
  | .increment key amount (some ttl) => Script.increment.call key [toString amount, ttlText ttl]
  | .ttlRemaining key => ["PTTL", key]
  | .compareAndDelete key expected => Script.compareAndDelete.call key [expected]

/-- What is still to arrive, and the conversation so far. -/
structure Talk where
  coming : List Arrival
  log : Log

def Talk.answer (s : Signal) : StateM Talk Arrival := fun t =>
  let arrival := t.coming.headD .silence
  (arrival, ⟨t.coming.tail, t.log ++ [(s, arrival)]⟩)

def Log.last? (log : Log) (c : Command) : Option Arrival :=
  (log.reverse.find? fun x => x.1 = .command c).map Prod.snd

/-- The connection was closed, or nothing came in time. -/
def Arrival.IsLost : Arrival → Prop
  | .reply _ => False
  | .dropped | .silence => True

/-- Whatever arrives, the exchange ends in one of the ways that are described. -/
def Exchange.Ends {α : Type} (P : α → Log → Prop) : Exchange α → Log → Prop
  | .done a, log => P a log
  | .send s next, log => ∀ arrival, (next arrival).Ends P (log ++ [(s, arrival)])

theorem Exchange.Ends.hold {α : Type} {P : α → Log → Prop} {e : Exchange α} {log : Log} (h : e.Ends P log)
    (coming : List Arrival) : P (e.hold Talk.answer ⟨coming, log⟩).1 (e.hold Talk.answer ⟨coming, log⟩).2.log := by
  induction e generalizing coming log with
  | done a => exact h
  | send s next ih => exact ih _ (h _) _

/-- Nothing but greetings was sent. -/
def Log.IsOpening (log : Log) : Prop := ∀ x ∈ log, ∀ c, x.1 ≠ .command c

/-- How a request comes out of a conversation: it succeeds with what its last reply gives, if that can be read, the store is
unavailable exactly if something was lost, and every other failure is the store's answer. A command is sent only by a client
that was let in. -/
structure Honest (r : Request) (result : Except Failure r.Reply) (log : Log) : Prop where
  ok_iff : ∀ a, result = .ok a ↔
    ∃ reply, log.last? (dataCommand r) = some (.reply reply) ∧ ¬ reply.Holds Reply.IsWide ∧ Takes r reply a
  unavailable_iff : (∃ outage, result = .error (.unavailable outage)) ↔ ∃ x ∈ log, x.2.IsLost
  failed : ∀ failure, result = .error failure →
    (∃ outage, failure = .unavailable outage) ∨ ∃ cause, failure = .internal cause
  admitted : log.IsOpening ∨ log.LetsIn

theorem Log.last?_append (log : Log) (s : Signal) (arrival : Arrival) (c : Command) :
    Log.last? (log ++ [(s, arrival)]) c = if s = .command c then some arrival else log.last? c := by
  simp only [Log.last?, List.reverse_append, List.reverse_cons, List.reverse_nil, List.nil_append, List.singleton_append,
    List.find?_cons]
  by_cases h : s = .command c <;> simp [h]

/-- Everything has arrived so far, and nothing for the command that could be taken. -/
structure Pending (r : Request) (log : Log) : Prop where
  arrived : ∀ x ∈ log, ¬ x.2.IsLost
  useless : ∀ reply, log.last? (dataCommand r) = some (.reply reply) → ¬ reply.Holds Reply.IsWide → ∀ a, ¬ Takes r reply a

section Conversations
variable {r : Request} {log round : Log} {s : Signal} {reply : Reply} {arrival : Arrival}

theorem pending_nil (r : Request) : Pending r [] := ⟨nofun, nofun⟩

theorem not_lost_append (h : ∀ x ∈ log, ¬ x.2.IsLost) (s : Signal) (reply : Reply) :
    ∀ x ∈ log ++ [(s, .reply reply)], ¬ x.2.IsLost :=
  List.forall_mem_append.2 ⟨h, List.forall_mem_singleton.2 id⟩

theorem Pending.next (h : Pending r log)
    (hs : s = .command (dataCommand r) → ¬ reply.Holds Reply.IsWide → ∀ a, ¬ Takes r reply a) :
    Pending r (log ++ [(s, .reply reply)]) where
  arrived := not_lost_append h.arrived s reply
  useless reply' hlast := by
    rw [Log.last?_append] at hlast
    split at hlast
    · next hsame =>
      cases hlast
      exact hs hsame
    · exact h.useless reply' hlast

theorem Log.IsOpening.next (h : log.IsOpening) (endpoint : Endpoint) (c : Command) (arrival : Arrival) :
    Log.IsOpening (log ++ [(.greeting endpoint c, arrival)]) :=
  List.forall_mem_append.2 ⟨h, List.forall_mem_singleton.2 fun _ => Signal.noConfusion⟩

theorem Log.LetsIn.next (h : log.LetsIn) (c : Command) (arrival : Arrival) : Log.LetsIn (log ++ [(.command c, arrival)]) := by
  have hquiet : ¬ Refuses (.command c, arrival) := by
    rintro ⟨_, _, _, _, heq, _⟩
    cases (Prod.mk.inj heq).1
  cases h with
  | once h => exact .once (List.forall_mem_append.2 ⟨h, List.forall_mem_singleton.2 hquiet⟩)
  | again hcomplaint hfirst hlogin hsecond =>
    obtain ⟨x, hx, hlogin⟩ := hlogin
    rw [List.append_assoc]
    refine .again hcomplaint hfirst ⟨x, List.mem_append_left _ hx, hlogin⟩ ?_
    rcases hsecond with hsecond | ⟨y, hy, hcomplains⟩
    · exact .inl (List.forall_mem_append.2 ⟨hsecond, List.forall_mem_singleton.2 hquiet⟩)
    · exact .inr ⟨y, List.mem_append_left _ hy, hcomplains⟩

theorem honest_refused (h : Pending r log) (hin : log.IsOpening ∨ log.LetsIn) (cause : Surprise) :
    Honest r (.error (.internal cause)) log where
  ok_iff a := ⟨nofun, fun ⟨reply, hlast, hlegible, htakes⟩ => absurd htakes (h.useless reply hlast hlegible a)⟩
  unavailable_iff := ⟨fun ⟨_, houtage⟩ => (by cases houtage), fun ⟨x, hx, hlost⟩ => absurd hlost (h.arrived x hx)⟩
  failed failure hfailure := .inr ⟨cause, (Except.error.inj hfailure).symm⟩
  admitted := hin

theorem honest_lost (h : Pending r log) (hlost : arrival.IsLost)
    (hin : Log.IsOpening (log ++ [(s, arrival)]) ∨ Log.LetsIn (log ++ [(s, arrival)])) (outage : Outage) :
    Honest r (.error (.unavailable outage)) (log ++ [(s, arrival)]) where
  ok_iff a := by
    refine ⟨nofun, fun ⟨reply, hlast, hlegible, htakes⟩ => ?_⟩
    rw [Log.last?_append] at hlast
    split at hlast
    · cases hlast
      exact hlost.elim
    · exact absurd htakes (h.useless reply hlast hlegible a)
  unavailable_iff := ⟨fun _ => ⟨(s, arrival), List.mem_append_right log List.mem_cons_self, hlost⟩, fun _ => ⟨outage, rfl⟩⟩
  failed failure hfailure := .inl ⟨outage, (Except.error.inj hfailure).symm⟩
  admitted := hin

theorem honest_read {read : Reply → Except Failure r.Reply} (hreads : Reads read (Takes r)) (h : Pending r log)
    (hin : log.LetsIn) (hlegible : ¬ reply.Holds Reply.IsWide) :
    Honest r (read reply) (log ++ [(.command (dataCommand r), .reply reply)]) where
  ok_iff a := by
    rw [hreads.ok_iff, Log.last?_append, if_pos rfl]
    exact ⟨fun htakes => ⟨reply, rfl, hlegible, htakes⟩, fun ⟨_, hlast, _, htakes⟩ => by cases hlast; exact htakes⟩
  unavailable_iff := by
    constructor
    · rintro ⟨outage, houtage⟩
      obtain ⟨cause, hcause⟩ := hreads.internal reply _ houtage
      cases hcause
    · rintro ⟨x, hx, hlost⟩
      exact absurd hlost (not_lost_append h.arrived _ reply x hx)
  failed failure hfailure := .inr (hreads.internal reply failure hfailure)
  admitted := .inr (hin.next _ _)

variable {client : Client} {next : Reply → Exchange (Except Failure r.Reply)} {read : Reply → Except Failure r.Reply}

/-- What is lost or cannot be read ends the conversation, so that only other replies are to be followed. -/
theorem ask_ends (h : Pending r log)
    (hin : ∀ arrival, Log.IsOpening (log ++ [(s, arrival)]) ∨ Log.LetsIn (log ++ [(s, arrival)]))
    (hreply : ∀ reply, ¬ reply.Holds Reply.IsWide → (next reply).Ends (Honest r) (log ++ [(s, .reply reply)])) :
    (client.ask s next).Ends (Honest r) log := by
  intro arrival
  cases arrival with
  | reply reply =>
    by_cases hlegible : reply.isLegible = true
    · simp only [hlegible, if_true]
      exact hreply reply ((Reply.isLegible_iff reply).1 hlegible)
    · simp only [hlegible]
      exact honest_refused (h.next fun _ hnarrow => absurd ((Reply.isLegible_iff reply).2 hnarrow) hlegible) (hin _) _
  | dropped => exact honest_lost h (show Arrival.dropped.IsLost from trivial) (hin _) _
  | silence => exact honest_lost h (show Arrival.silence.IsLost from trivial) (hin _) _

/-- Where a round of greetings is not cut short, what comes next depends on the replies alone. -/
theorem greet_ends {gs : List Greeting} {after : Welcome → Exchange (Except Failure r.Reply)} (h : Pending r log)
    (hopening : log.IsOpening)
    (hafter : ∀ answered, answered.map Prod.fst = gs → Pending r (log ++ spoken client.address.endpoint answered) →
      Log.IsOpening (log ++ spoken client.address.endpoint answered) →
      (after (welcome answered)).Ends (Honest r) (log ++ spoken client.address.endpoint answered)) :
    (client.greet gs after).Ends (Honest r) log := by
  induction gs generalizing log after with
  | nil =>
    have hdone := hafter [] rfl ((List.append_nil log).symm ▸ h) ((List.append_nil log).symm ▸ hopening)
    rwa [spoken, List.map_nil, List.append_nil] at hdone
  | cons g gs ih =>
    refine ask_ends h (fun arrival => .inl (hopening.next _ _ arrival)) fun reply _ => ?_
    refine ih (h.next nofun) (hopening.next _ _ _) fun answered hsent hpending hopening => ?_
    rw [List.append_assoc, List.singleton_append] at hpending hopening ⊢
    exact hafter ((g, reply) :: answered) (congrArg (g :: ·) hsent) hpending hopening

theorem connect_ends {next : Exchange (Except Failure r.Reply)}
    (hnext : ∀ log, Pending r log → log.LetsIn → next.Ends (Honest r) log) :
    (client.connect next).Ends (Honest r) [] := by
  refine greet_ends (pending_nil r) nofun fun answered hsent h hopening => ?_
  rw [List.nil_append] at h hopening ⊢
  cases hwelcome : welcome answered with
  | admitted => exact hnext _ h (.once (not_refuses_spoken hsent hwelcome _))
  | refused cause => exact honest_refused h (.inl hopening) cause
  | nameless =>
    refine greet_ends h hopening fun again hsent' h hopening => ?_
    have hin := letsIn_again hsent hwelcome hsent'
    cases hwelcome' : welcome again with
    | refused cause => exact honest_refused h (.inl hopening) cause
    | admitted | nameless => exact hnext _ h (hin (fun _ hrefused => by cases hwelcome'.symm.trans hrefused) _)

theorem query_ends (client : Client) (hreads : Reads read (Takes r)) :
    (client.query (dataCommand r) read).Ends (Honest r) [] :=
  connect_ends fun _ h hin =>
    ask_ends h (fun arrival => .inr (hin.next _ arrival)) fun _ hlegible => honest_read hreads h hin hlegible

theorem error?_of_isNoScript (h : reply.isNoScript = true) : reply.error? ≠ none := by
  intro hnone
  rw [Reply.isNoScript, hnone] at h
  cases h

theorem accept_internal {failure : Failure} (h : reply.accept = .error failure) : ∃ cause, failure = .internal cause :=
  (reads_accept "" "" none).internal reply failure h

/-- A script that the server does not know is loaded and called again, once. -/
theorem runScript_ends (client : Client) (hreads : Reads read (Takes r)) {script : Script} {key : String}
    {arguments : List String} (hcall : script.call key arguments = dataCommand r) :
    (client.runScript script key arguments read).Ends (Honest r) [] := by
  have hload : Signal.command script.load ≠ .command (dataCommand r) := by
    rw [← hcall]
    simp [Script.load, Script.call]
  refine connect_ends fun log h hin => ask_ends h (fun arrival => .inr (hin.next _ arrival)) fun reply hlegible => ?_
  rw [hcall]
  split
  · next hunknown =>
    have hcalled := h.next (s := .command (dataCommand r)) fun _ _ a htakes =>
      error?_of_isNoScript hunknown htakes.error?_eq_none
    have hin' := hin.next (dataCommand r) (.reply reply)
    refine ask_ends hcalled (fun arrival => .inr (hin'.next _ arrival)) fun loaded _ => ?_
    have hloaded : Pending r (_ ++ [(.command script.load, .reply loaded)]) :=
      hcalled.next fun hsame => absurd hsame hload
    have hin'' := hin'.next script.load (.reply loaded)
    cases haccept : loaded.accept with
    | error failure =>
      obtain ⟨cause, rfl⟩ := accept_internal haccept
      exact honest_refused hloaded (.inr hin'') cause
    | ok _ =>
      exact ask_ends hloaded (fun arrival => .inr (hin''.next _ arrival)) fun _ hlegible =>
        honest_read hreads hloaded hin'' hlegible
  · exact honest_read hreads h hin hlegible

theorem converse_ends (client : Client) (r : Request) : (client.converse r).Ends (Honest r) [] := by
  cases r with
  | ping => exact query_ends client reads_pong
  | get key => exact query_ends client (reads_optionalText key)
  | setIfAbsent key value ttl => exact query_ends client (reads_presence key value ttl)
  | set key value ttl =>
    cases ttl with
    | none => exact query_ends client (reads_accept key value none)
    | some ttl => exact query_ends client (reads_accept key value (some ttl))
  | delete key => exact query_ends (r := .delete key) client reads_count
  | ttlRemaining key => exact query_ends client (reads_lifetime key)
  | increment key amount ttl =>
    cases ttl with
    | none => exact query_ends (r := .increment key amount none) client reads_integerValue
    | some ttl => exact runScript_ends (r := .increment key amount (some ttl)) client reads_integerValue rfl
  | compareAndDelete key expected =>
    exact runScript_ends (r := .compareAndDelete key expected) client reads_count rfl

end Conversations

/-- Whatever arrives from a server, a request with a lifetime below a millisecond is refused and sends nothing, and any other
comes out of the conversation honestly: it has succeeded only with what the last reply to its command gives. -/
theorem round_trip_is_honest (client : Client) (r : Request) (arrivals : List Arrival) :
    let ended := (client.request r).hold Talk.answer ⟨arrivals, []⟩
    ((∃ ttl, r.ttl? = some ttl ∧ ttl.nanos < Duration.nanosPerMilli) →
      ended.1 = .error (.invalidArgument .ttlTooShort) ∧ ended.2.log = []) ∧
    ((∀ ttl, r.ttl? = some ttl → Duration.nanosPerMilli ≤ ttl.nanos) → Honest r ended.1 ended.2.log) := by
  intro ended
  constructor
  · rintro ⟨ttl, httl, hshort⟩
    have hmillis : ttl.millis = 0 := Nat.div_eq_of_lt hshort
    have hcheck : r.checkTtl = .error (.invalidArgument .ttlTooShort) := by
      simp only [Request.checkTtl, httl, Store.checkTtl, hmillis, if_true]
    have hrequest : client.request r = .done (.error (.invalidArgument .ttlTooShort)) := by
      rw [Client.request, hcheck]
    simp only [ended, hrequest]
    exact ⟨rfl, rfl⟩
  · intro hlong
    have hcheck : r.checkTtl = .ok () := by
      unfold Request.checkTtl
      split
      · next ttl httl => exact Store.checkTtl_eq_ok.2 (Nat.pos_iff_ne_zero.1 (Nat.div_pos (hlong ttl httl) (by decide)))
      · rfl
    have hrequest : client.request r = client.converse r := by
      rw [Client.request, hcheck]
    simp only [ended, hrequest]
    exact (converse_ends client r).hold arrivals

def nearClient : Client := ⟨⟨.tcp "localhost" 6379, 0, none, none, .resp2⟩, .ofSeconds 1⟩

/-- The server is greeted, does not know a script, and is asked for it again once it is loaded. -/
def loadingArrivals (last : Arrival) : List Arrival :=
  [.reply (.status "OK"), .reply (.status "OK"), .reply (.error "NOSCRIPT No matching script."), .reply (.bulk "b255".toUTF8),
    last]

def guardedClient : Client := ⟨⟨.tcp "localhost" 6379, 2, some "me", some "secret", .resp2⟩, .ofSeconds 1⟩

/-- Replies to its greetings, and one to its command. -/
def guardedArrivals (login : Reply) : List Arrival :=
  [.reply login, .reply (.status "OK"), .reply (.status "OK"), .reply (.status "OK"), .reply (.bulk "x".toUTF8)]

def secondLogin : List Arrival :=
  .reply (.error "ERR wrong number of arguments for 'auth' command") :: List.replicate 7 (.reply (.status "OK")) ++
    [.reply (.bulk "x".toUTF8)]

/-- A lock is given back only on the count of the second call, and one that is taken for half a millisecond is never asked for.
Nothing is read for a client whose login is refused, and nothing from a number that is too large. -/
theorem lock_round_trips :
    let given := (nearClient.request (.compareAndDelete "lock:a" "me")).hold Talk.answer ⟨loadingArrivals (.reply (.integer 1)), []⟩
    let lost := (nearClient.request (.compareAndDelete "lock:a" "me")).hold Talk.answer ⟨loadingArrivals .dropped, []⟩
    let taken := (nearClient.request (.setIfAbsent "lock:a" "me" ⟨500000⟩)).hold Talk.answer ⟨[.reply (.status "OK")], []⟩
    let wide := (nearClient.request (.compareAndDelete "lock:a" "me")).hold Talk.answer
      ⟨loadingArrivals (.reply (.integer 9223372036854775808)), []⟩
    let admitted := (guardedClient.request (.get "a")).hold Talk.answer ⟨guardedArrivals (.status "OK"), []⟩
    let refused := (guardedClient.request (.get "a")).hold Talk.answer ⟨guardedArrivals (.error "WRONGPASS"), []⟩
    let retried := (guardedClient.request (.get "a")).hold Talk.answer ⟨secondLogin, []⟩
    (∀ ttl, (Request.compareAndDelete "lock:a" "me").ttl? = some ttl → Duration.nanosPerMilli ≤ ttl.nanos) ∧
      given.1 = .ok true ∧ (∃ outage, lost.1 = .error (.unavailable outage)) ∧ wide.1 ≠ .ok true ∧
      admitted.1 = .ok (some "x") ∧ refused.1 ≠ .ok (some "x") ∧ refused.2.log.length = 4 ∧
      retried.1 = .ok (some "x") ∧ retried.2.log.length = 9 ∧
      (∃ ttl, (Request.setIfAbsent "lock:a" "me" ⟨500000⟩).ttl? = some ttl ∧ ttl.nanos < Duration.nanosPerMilli) ∧
      taken.1 = .error (.invalidArgument .ttlTooShort) ∧ taken.2.log = [] := by
  intro given lost taken wide admitted refused retried
  have hlong : ∀ ttl, (Request.compareAndDelete "lock:a" "me").ttl? = some ttl → Duration.nanosPerMilli ≤ ttl.nanos := nofun
  have hlong' : ∀ ttl, (Request.get "a").ttl? = some ttl → Duration.nanosPerMilli ≤ ttl.nanos := nofun
  have hshort : ∃ ttl, (Request.setIfAbsent "lock:a" "me" ⟨500000⟩).ttl? = some ttl ∧ ttl.nanos < Duration.nanosPerMilli :=
    ⟨_, rfl, by decide⟩
  have hgiven : Honest _ given.1 given.2.log := (round_trip_is_honest nearClient _ _).2 hlong
  have hlost : Honest _ lost.1 lost.2.log := (round_trip_is_honest nearClient _ _).2 hlong
  have hwide : Honest _ wide.1 wide.2.log := (round_trip_is_honest nearClient _ _).2 hlong
  have hadmitted : Honest _ admitted.1 admitted.2.log := (round_trip_is_honest guardedClient _ _).2 hlong'
  have hrefused : Honest _ refused.1 refused.2.log := (round_trip_is_honest guardedClient _ _).2 hlong'
  have hretried : Honest _ retried.1 retried.2.log := (round_trip_is_honest guardedClient _ _).2 hlong'
  refine ⟨hlong, ?_, ?_, ?_, ?_, ?_, rfl, ?_, rfl, hshort, (round_trip_is_honest nearClient _ _).1 hshort⟩
  · exact (hgiven.ok_iff true).2 ⟨.integer 1, rfl, (Reply.isLegible_iff _).1 rfl, 1, .integer 1, rfl⟩
  · exact hlost.unavailable_iff.2 ⟨(_, .dropped), List.mem_of_getElem? (i := 4) rfl, trivial⟩
  · intro htrue
    obtain ⟨reply, hlast, hlegible, _⟩ := (hwide.ok_iff true).1 htrue
    obtain rfl : Reply.integer 9223372036854775808 = reply := Arrival.reply.inj (Option.some.inj hlast)
    exact hlegible (.here ⟨_, rfl, by decide⟩)
  · exact (hadmitted.ok_iff (some "x")).2 ⟨.bulk "x".toUTF8, rfl, (Reply.isLegible_iff _).1 rfl, .bulk "x"⟩
  · intro hread
    obtain ⟨reply, hlast, _⟩ := (hrefused.ok_iff (some "x")).1 hread
    cases hlast
  · exact (hretried.ok_iff (some "x")).2 ⟨.bulk "x".toUTF8, rfl, (Reply.isLegible_iff _).1 rfl, .bulk "x"⟩

end Coordination.Remote
