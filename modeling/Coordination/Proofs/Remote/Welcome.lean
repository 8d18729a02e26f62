import Coordination.Proofs.Remote.Reading

/-! # Who is let in

A server refuses a client with an error for its user or its database. A login is refused by anything but a plain consent, too;
only over the number of its arguments it is tried again. The client takes the replies to its greetings in just that way.
-/
namespace Coordination.Remote

/-- Signals that were sent, each with what arrived for it. -/
abbrev Log := List (Signal × Arrival)

/-- What arrived is no consent to the user or the database that was named. -/
def Refuses (x : Signal × Arrival) : Prop :=
  ∃ endpoint name arguments reply, x = (.greeting endpoint (name :: arguments), .reply reply) ∧
    ((name = "HELLO" ∨ name = "SELECT") ∧ reply.IsError ∨ name = "AUTH" ∧ reply ≠ .status "OK")

/-- The server counts the arguments of a login and finds a wrong number of them. -/
def Complains (x : Signal × Arrival) : Prop :=
  ∃ endpoint arguments text, x = (.greeting endpoint ("AUTH" :: arguments), .reply (.error text)) ∧
    "wrong number of arguments for 'auth' command".toList <:+: text.toList

def IsLogin (x : Signal × Arrival) : Prop := ∃ endpoint arguments, x.1 = .greeting endpoint ("AUTH" :: arguments)

/-- The client was let in: it was refused nothing, or the server complained of its login, and it was refused nothing when it
logged in again. A second complaint is overlooked. -/
inductive Log.LetsIn : Log → Prop
  | once {log : Log} (h : ∀ x ∈ log, ¬ Refuses x) : LetsIn log
  | again {first second : Log} (hcomplaint : ∃ x ∈ first, Complains x) (hfirst : ∀ x ∈ first, IsLogin x → Complains x)
    (hlogin : ∃ x ∈ second, IsLogin x) (hsecond : (∀ x ∈ second, ¬ Refuses x) ∨ ∃ x ∈ second, Complains x) :
    LetsIn (first ++ second)

section Greetings
variable {a : Address} {named : Bool} {g : Greeting} {reply : Reply}

theorem not_isError_of_judgeError (h : Greeting.judgeError reply = .admitted) : ¬ reply.IsError := by
  rintro ⟨text, rfl⟩
  cases h

theorem eq_ok_of_judgeLogin (h : Greeting.judgeLogin reply = .admitted) : reply = .status "OK" := by
  unfold Greeting.judgeLogin at h
  split at h
  · split at h
    · next hok => rw [hok]
    · cases h
  · split at h <;> cases h
  · cases h

theorem infix_of_occurs {phrase cs : List Char} (h : Greeting.occurs phrase cs = true) : phrase <:+: cs := by
  induction cs with
  | nil => exact List.isEmpty_iff.1 h ▸ List.nil_infix
  | cons c cs ih =>
    rcases Bool.or_eq_true _ _ ▸ h with h | h
    · exact (List.isPrefixOf_iff_prefix.1 h).isInfix
    · exact (ih h).trans (List.suffix_cons c cs).isInfix

theorem not_refuses_of_admitted (hg : g ∈ a.greetings named) (h : g.judge reply = .admitted) (endpoint : Endpoint) :
    ¬ Refuses (.greeting endpoint g.command, .reply reply) := by
  rintro ⟨_, name, arguments, _, heq, hrefuses⟩
  obtain ⟨hsignal, hreply⟩ := Prod.mk.inj heq
  obtain ⟨-, hcommand⟩ := Signal.greeting.inj hsignal
  obtain rfl := Arrival.reply.inj hreply
  rcases Address.mem_greetings hg with ⟨_, rfl⟩ | ⟨_, rfl⟩ | ⟨_, rfl⟩ | ⟨_, _, rfl⟩ <;>
    obtain ⟨rfl, -⟩ := List.cons.inj hcommand
  · rcases hrefuses with ⟨_, herror⟩ | ⟨hname, _⟩
    · exact not_isError_of_judgeError h herror
    · exact absurd hname (by decide)
  · rcases hrefuses with ⟨hname, _⟩ | ⟨_, hne⟩
    · exact absurd hname (by decide)
    · exact hne (eq_ok_of_judgeLogin h)
  · rcases hrefuses with ⟨_, herror⟩ | ⟨hname, _⟩
    · exact not_isError_of_judgeError h herror
    · exact absurd hname (by decide)
  · rcases hrefuses with ⟨hname, _⟩ | ⟨hname, _⟩
    · exact absurd hname (by decide)
    · exact absurd hname (by decide)

theorem complains_of_judgeLogin (h : Greeting.judgeLogin reply = .nameless) (endpoint : Endpoint) (arguments : Command) :
    Complains (.greeting endpoint ("AUTH" :: arguments), .reply reply) := by
  unfold Greeting.judgeLogin at h
  split at h
  · split at h <;> cases h
  · next text =>
    split at h
    · next hcomplaint =>
      have hdetail : Reply.errorDetail text <:+: text.toList :=
        ((List.drop_suffix _ _).trans (List.dropWhile_suffix _)).isInfix
      exact ⟨endpoint, arguments, text, rfl, (infix_of_occurs hcomplaint).trans hdetail⟩
    · cases h
  · cases h

theorem auth_of_nameless (hg : g ∈ a.greetings named) (h : g.judge reply = .nameless) : ∃ arguments, g = .auth arguments := by
  have herror : ∀ reply, Greeting.judgeError reply ≠ .nameless := by
    intro reply
    cases reply <;> exact nofun
  rcases Address.mem_greetings hg with ⟨_, rfl⟩ | ⟨arguments, rfl⟩ | ⟨_, rfl⟩ | ⟨_, _, rfl⟩
  · exact absurd h (herror reply)
  · exact ⟨arguments, rfl⟩
  · exact absurd h (herror reply)
  · cases h

theorem not_isLogin_of_manners (hg : g ∈ a.manners) (endpoint : Endpoint) (arrival : Arrival) :
    ¬ IsLogin (.greeting endpoint g.command, arrival) := by
  rintro ⟨_, _, heq⟩
  obtain ⟨-, hcommand⟩ := Signal.greeting.inj heq
  rcases Address.mem_manners hg with ⟨_, rfl⟩ | ⟨_, _, rfl⟩
  · exact absurd (List.cons.inj hcommand).1 (by decide)
  · exact absurd (List.cons.inj hcommand).1 (by decide)

/-- A login by a password is the only one of its round, and there is one with and without the user's name. -/
theorem login_of_auth {arguments : Command} (h : .auth arguments ∈ a.greetings named) :
    a.login named = [.auth arguments] ∧ ∃ arguments', a.login false = [.auth arguments'] := by
  have hlogin : .auth arguments ∈ a.login named := by
    rcases List.mem_append.1 h with h | h
    · exact h
    · exact absurd ⟨.socket [], _, rfl⟩ (not_isLogin_of_manners h (.socket []) .silence)
  obtain ⟨_, _, _, password, protocol⟩ := a
  cases protocol <;> cases password
  · cases hlogin
  · obtain rfl := (List.cons.inj (congrArg Greeting.command (List.mem_singleton.1 hlogin))).2
    exact ⟨rfl, _, rfl⟩
  · exact absurd (List.cons.inj (congrArg Greeting.command (List.mem_singleton.1 hlogin))).1 (by decide)
  · exact absurd (List.cons.inj (congrArg Greeting.command (List.mem_singleton.1 hlogin))).1 (by decide)

end Greetings

/-- What is made of the replies to some greetings. -/
def welcome : List (Greeting × Reply) → Welcome
  | [] => .admitted
  | (g, reply) :: rest => (g.judge reply).and (welcome rest)

/-- The part of a conversation in which the greetings are sent and replied to. -/
def spoken (endpoint : Endpoint) (answered : List (Greeting × Reply)) : Log :=
  answered.map fun (g, reply) => (.greeting endpoint g.command, .reply reply)

section Rounds
variable {a : Address} {named : Bool} {answered again : List (Greeting × Reply)}

theorem judge_of_admitted (h : welcome answered = .admitted) : ∀ x ∈ answered, x.1.judge x.2 = .admitted := by
  induction answered with
  | nil => exact List.forall_mem_nil _
  | cons x rest ih =>
    obtain ⟨g, reply⟩ := x
    rw [welcome] at h
    cases hjudge : g.judge reply with
    | admitted =>
      rw [hjudge] at h
      exact List.forall_mem_cons.2 ⟨hjudge, ih h⟩
    | nameless | refused => rw [hjudge] at h; cases h

theorem judge_of_nameless (h : welcome answered = .nameless) : ∃ x ∈ answered, x.1.judge x.2 = .nameless := by
  induction answered with
  | nil => cases h
  | cons x rest ih =>
    obtain ⟨g, reply⟩ := x
    rw [welcome] at h
    cases hjudge : g.judge reply with
    | admitted =>
      rw [hjudge] at h
      obtain ⟨x, hx, hnameless⟩ := ih h
      exact ⟨x, List.mem_cons_of_mem _ hx, hnameless⟩
    | nameless => exact ⟨_, List.mem_cons_self, hjudge⟩
    | refused =>
      rw [hjudge] at h
      cases h

theorem not_refuses_spoken (hsent : answered.map Prod.fst = a.greetings named) (h : welcome answered = .admitted)
    (endpoint : Endpoint) : ∀ x ∈ spoken endpoint answered, ¬ Refuses x := by
  intro x hx
  obtain ⟨⟨g, reply⟩, hmem, rfl⟩ := List.mem_map.1 hx
  exact not_refuses_of_admitted (hsent ▸ List.mem_map_of_mem hmem) (judge_of_admitted h _ hmem) endpoint

/-- The login of a round that has to be sent again was complained of, and the round has no other. -/
theorem complains_spoken (hsent : answered.map Prod.fst = a.greetings named) (h : welcome answered = .nameless)
    (endpoint : Endpoint) :
    (∃ x ∈ spoken endpoint answered, Complains x) ∧ (∀ x ∈ spoken endpoint answered, IsLogin x → Complains x) ∧
      ∃ arguments, a.login false = [.auth arguments] := by
  obtain ⟨⟨g, reply⟩, hmem, hjudge⟩ := judge_of_nameless h
  have hg : g ∈ a.greetings named := hsent ▸ List.mem_map_of_mem hmem
  obtain ⟨arguments, rfl⟩ := auth_of_nameless hg hjudge
  obtain ⟨hlogin, hagain⟩ := login_of_auth hg
  rw [Address.greetings, hlogin, List.singleton_append] at hsent
  obtain ⟨⟨_, first⟩, rest, rfl, hfirst, hrest⟩ := List.map_eq_cons_iff.1 hsent
  obtain rfl : _ = Greeting.auth arguments := hfirst
  have hothers : ∀ x ∈ spoken endpoint rest, ¬ IsLogin x := by
    intro x hx
    obtain ⟨⟨g, reply⟩, hmem, rfl⟩ := List.mem_map.1 hx
    exact not_isLogin_of_manners (hrest ▸ List.mem_map_of_mem hmem) endpoint _
  have hcomplains : Complains (.greeting endpoint ("AUTH" :: arguments), .reply first) := by
    rcases List.mem_cons.1 hmem with heq | hmem
    · cases heq
      exact complains_of_judgeLogin hjudge endpoint arguments
    · exact absurd ⟨endpoint, arguments, rfl⟩ (hothers _ (List.mem_map_of_mem hmem))
  exact ⟨⟨_, List.mem_cons_self, hcomplains⟩,
    List.forall_mem_cons.2 ⟨fun _ => hcomplains, fun x hx hx' => absurd hx' (hothers x hx)⟩, hagain⟩

/-- A client is let in by a round of greetings, or by a second one after a complaint. -/
theorem letsIn_again (hsent : answered.map Prod.fst = a.greetings true) (h : welcome answered = .nameless)
    (hsent' : again.map Prod.fst = a.greetings false) (h' : ∀ cause, welcome again ≠ .refused cause) (endpoint : Endpoint) :
    Log.LetsIn (spoken endpoint answered ++ spoken endpoint again) := by
  obtain ⟨hcomplaint, hfirst, arguments, hlogin⟩ := complains_spoken hsent h endpoint
  refine .again hcomplaint hfirst ?_ ?_
  · rw [Address.greetings, hlogin, List.singleton_append] at hsent'
    obtain ⟨⟨_, reply⟩, rest, rfl, hauth, _⟩ := List.map_eq_cons_iff.1 hsent'
    obtain rfl : _ = Greeting.auth arguments := hauth
    exact ⟨_, List.mem_cons_self, endpoint, arguments, rfl⟩
  · cases hw : welcome again with
    | admitted => exact .inl (not_refuses_spoken hsent' hw endpoint)
    | nameless => exact .inr (complains_spoken hsent' hw endpoint).1
    | refused cause => exact absurd hw (h' cause)

end Rounds

end Coordination.Remote
