import Coordination.Bounds
import Coordination.Failure

/-! # Replies of a store server

What a server may answer to a command, and how an answer is read as what an operation needs. Texts come as bulk
strings, as statuses or as integers; integers come as such or as texts.
-/
namespace Coordination.Remote

inductive Reply where
  | integer (n : Int)
  | bulk (bytes : ByteArray)
  | status (text : String)
  | error (text : String)
  | nil
  | array (items : List Reply)

namespace Reply

mutual
/-- The first that a function finds in a reply or in the items of it, at any depth. -/
def first? {α : Type} (f : Reply → Option α) : Reply → Option α
  | .array items => (f (.array items)).or (firstIn? f items)
  | r => f r

def firstIn? {α : Type} (f : Reply → Option α) : List Reply → Option α
  | [] => none
  | r :: rest => (first? f r).or (firstIn? f rest)
end

/-- The text of the first error in a reply, at any depth. -/
def error? : Reply → Option String := first? fun
  | .error text => some text
  | _ => none

/-- The integers that replies hold. -/
def integerBounds : Bounds := Bounds.signed 64

/-- Whether a reply can be read: no integer in it, at any depth, is out of range. -/
def isLegible (r : Reply) : Bool := (r.first? fun
  | .integer n => if integerBounds.contains n then none else some n
  | _ => none).isNone

def unfit {α : Type} (what : String) : Except Failure α := .error (.internal (.reply s!"the reply is no {what}"))

/-- A reply that may be anything but an error. -/
def accept (r : Reply) : Except Failure Unit :=
  match r.error? with
  | some text => .error (.internal (.reply text))
  | none => .ok ()

def text : Reply → Except Failure String
  | .bulk bytes =>
    match String.fromUTF8? bytes with
    | some s => .ok s
    | none => unfit "text"
  | .status s => .ok s
  | .integer n => .ok (toString n)
  | .error e => .error (.internal (.reply e))
  | .nil => unfit "text"
  | .array _ => unfit "text"

def optionalText : Reply → Except Failure (Option String)
  | .nil => .ok none
  | r => some <$> r.text

def integerOfText (s : String) : Except Failure Int :=
  match Text.Integer.parse integerBounds s with
  | .ok n => .ok n
  | .error _ => unfit "integer"

def integerValue : Reply → Except Failure Int
  | .integer n => .ok n
  | .bulk bytes =>
    match String.fromUTF8? bytes with
    | some s => integerOfText s
    | none => unfit "integer"
  | .status s => integerOfText s
  | .error e => .error (.internal (.reply e))
  | .nil => unfit "integer"
  | .array _ => unfit "integer"

/-! ## Errors -/

/-- The code in front of the first blank of an error. -/
def errorCode (text : String) : String := String.ofList (text.toList.takeWhile (· != ' '))

/-- What an error says behind its code. -/
def errorDetail (text : String) : List Char := (text.toList.dropWhile (· != ' ')).drop 1

/-- Whether the first error in a reply says that a script is not loaded. -/
def isNoScript (r : Reply) : Bool := r.error?.any fun text => errorCode text == "NOSCRIPT"

end Reply

end Coordination.Remote
