import Coordination.Console.Span
import Coordination.Failure

/-! # The screen

What the tool shows: results on one channel, remarks and errors on the other. Lines begin with a coloured mark that
says what they are.
-/
namespace Coordination.Console

/-- The two channels of a terminal. -/
structure Screen where
  out : String
  err : String
deriving DecidableEq, Repr

namespace Screen

def blank : Screen := ⟨"", ""⟩

def print (s : Screen) (line : String) : Screen := { s with out := s.out ++ line ++ "\n" }

def printError (s : Screen) (line : String) : Screen := { s with err := s.err ++ line ++ "\n" }

end Screen

namespace Style

/-- A text between the codes that turn a style on and off. -/
def between (on off : Nat) (text : String) : String := s!"\x1b[{on}m{text}\x1b[{off}m"

def red : String → String := between 31 39

def green : String → String := between 32 39

def yellow : String → String := between 33 39

def blue : String → String := between 34 39

def bold : String → String := between 1 0

def dimmed : String → String := between 2 0

end Style

def successLine (text : String) : String := Style.green "✓" ++ " " ++ text

/-- A refusal that is no error. -/
def deniedLine (text : String) : String := Style.yellow "⊘" ++ " " ++ text

def infoLine (text : String) : String := Style.blue "ℹ" ++ " " ++ text

def errorLine (text : String) : String := Style.red "✗" ++ " " ++ text

def hintLine (text : String) : String := "  " ++ Style.dimmed "→" ++ " " ++ Style.dimmed text

/-- Whether a text occurs in another. -/
def occurs (part : List Char) : List Char → Bool
  | [] => part.isEmpty
  | c :: cs => part.isPrefixOf (c :: cs) || occurs part cs

/-- Advice by what an error message contains; the first that applies. -/
def hints : List (String × String) := [
  ("missing value for field", "Set TOLLGATE_REDIS_URL, e.g. redis://127.0.0.1:6379"),
  ("store unavailable", "Check that Redis is running and reachable at TOLLGATE_REDIS_URL."),
  ("invalid redis url", "Use the form redis://host:port or rediss://host:port for TLS."),
  ("idempotency key", "Keys must be 1 to 255 bytes."),
  ("serialization failed", "The stored record is not in the expected format; inspect it with redis-cli.")]

def hint? (message : String) : Option String :=
  (hints.find? fun entry => occurs entry.1.toList message.toList).map Prod.snd

/-- Shows a failure, with advice if there is any. -/
def Screen.printFailure (s : Screen) (f : Failure) : Screen :=
  let s := s.printError (errorLine f.message)
  match hint? f.message with
  | some hint => s.printError (hintLine hint)
  | none => s

end Coordination.Console
