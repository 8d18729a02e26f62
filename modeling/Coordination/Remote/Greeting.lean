import Coordination.Remote.Address
import Coordination.Remote.Reply

/-! # Greetings

Before its first command a connection is made ready: the client names its user, chooses a database and says what it is. All of
this is sent at once, and judged when every reply has come. A server that takes no names of users is greeted again without one.
-/
namespace Coordination.Remote

abbrev Command := List String

/-- What the client makes of the reply to a greeting. -/
inductive Welcome where
  | admitted
  /-- The greeting has to be sent again without the name of the user. -/
  | nameless
  | refused (cause : Surprise)
deriving DecidableEq, Repr

/-- The first that is no admission counts. -/
def Welcome.and : Welcome → Welcome → Welcome
  | .admitted, later => later
  | w, _ => w

structure Greeting where
  command : Command
  judge : Reply → Welcome

namespace Greeting

/-- Anything but an error will do. -/
def judgeError : Reply → Welcome
  | .error text => .refused (.reply text)
  | _ => .admitted

/-- What a server says of a command that came with more than a password and knows of no users. -/
def argumentCount : String := "wrong number of arguments for 'auth' command"

def occurs (phrase : List Char) : List Char → Bool
  | [] => phrase.isEmpty
  | c :: cs => phrase.isPrefixOf (c :: cs) || occurs phrase cs

def isComplaint (text : String) : Bool := occurs argumentCount.toList (Reply.errorDetail text)

def judgeLogin : Reply → Welcome
  | .status text => if text = "OK" then .admitted else .refused (.reply "the login was not answered")
  | .error text => if isComplaint text then .nameless else .refused (.reply text)
  | _ => .refused (.reply "the login was not answered")

def hello (arguments : Command) : Greeting := ⟨"HELLO" :: arguments, judgeError⟩

def auth (arguments : Command) : Greeting := ⟨"AUTH" :: arguments, judgeLogin⟩

def select (database : Int) : Greeting := ⟨["SELECT", toString database], judgeError⟩

/-- The client does not care whether the server wants to know. -/
def introduction (what text : String) : Greeting := ⟨["CLIENT", "SETINFO", what, text], fun _ => .admitted⟩

end Greeting

namespace Address

def login (a : Address) (named : Bool) : List Greeting :=
  match a.protocol, a.password with
  | .resp3, none => [.hello ["3"]]
  | .resp3, some secret => [.hello ["3", "AUTH", a.username.getD "default", secret]]
  | .resp2, none => []
  | .resp2, some secret => [.auth ((if named then a.username.toList else []) ++ [secret])]

/-- What is sent behind a login, if there is one. -/
def manners (a : Address) : List Greeting :=
  (if a.database = 0 then [] else [.select a.database]) ++
    [.introduction "LIB-NAME" "redis-rs", .introduction "LIB-VER" "0.32"]

def greetings (a : Address) (named : Bool) : List Greeting := a.login named ++ a.manners

variable {a : Address} {named : Bool} {g : Greeting}

theorem mem_login (h : g ∈ a.login named) : (∃ arguments, g = .hello arguments) ∨ ∃ arguments, g = .auth arguments := by
  unfold Address.login at h
  split at h
  · exact .inl ⟨_, List.mem_singleton.1 h⟩
  · exact .inl ⟨_, List.mem_singleton.1 h⟩
  · cases h
  · exact .inr ⟨_, List.mem_singleton.1 h⟩

theorem mem_manners (h : g ∈ a.manners) : (∃ database, g = .select database) ∨ ∃ what text, g = .introduction what text := by
  rcases List.mem_append.1 h with h | h
  · split at h
    · cases h
    · exact .inl ⟨_, List.mem_singleton.1 h⟩
  · rcases List.mem_cons.1 h with h | h
    · exact .inr ⟨_, _, h⟩
    · exact .inr ⟨_, _, List.mem_singleton.1 h⟩

theorem mem_greetings (h : g ∈ a.greetings named) : (∃ arguments, g = .hello arguments) ∨ (∃ arguments, g = .auth arguments) ∨
    (∃ database, g = .select database) ∨ ∃ what text, g = .introduction what text := by
  rcases List.mem_append.1 h with h | h
  · rcases mem_login h with h | h
    · exact .inl h
    · exact .inr (.inl h)
  · exact .inr (.inr (mem_manners h))

/-- A server that says yes to everything lets every client in. -/
theorem judge_ok (h : g ∈ a.greetings named) : g.judge (.status "OK") = .admitted := by
  rcases mem_greetings h with ⟨_, rfl⟩ | ⟨_, rfl⟩ | ⟨_, rfl⟩ | ⟨_, _, rfl⟩ <;> rfl

end Address

end Coordination.Remote
