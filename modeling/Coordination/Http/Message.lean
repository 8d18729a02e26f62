import Coordination.Json.Writer
import Coordination.RateLimit.Dimension

/-! # Requests and responses

The parts of HTTP messages that the layers look at. Header names are told apart without case; values are
bytes. A body may break before its end.
-/
namespace Coordination.Http

/-- Headers in the order in which they were added. -/
abbrev Headers := List (String × ByteArray)

namespace Headers

def sameName (a b : String) : Bool := a.toList.map Char.toLower == b.toList.map Char.toLower

/-- The first value of a header. -/
def get? (headers : Headers) (name : String) : Option ByteArray :=
  (headers.find? fun h => sameName h.1 name).map Prod.snd

/-- All headers but those of a name. -/
def remove (headers : Headers) (name : String) : Headers := headers.filter fun h => !sameName h.1 name

/-- Gives a header one value instead of those it had. -/
def insert (headers : Headers) (name : String) (value : ByteArray) : Headers := (name, value) :: headers.remove name

theorem get?_insert (headers : Headers) (name : String) (value : ByteArray) :
    (headers.insert name value).get? name = some value := by
  simp [get?, insert, sameName]

end Headers

/-- The text of a header value of printable ASCII characters and tabs. -/
def visibleText? (value : ByteArray) : Option String :=
  let bytes := value.toList
  if bytes.all fun b => (0x20 ≤ b && b ≤ 0x7e) || b == 0x09 then
    some (String.ofList (bytes.map fun b => Char.ofNat b.toNat))
  else none

/-- A text as a header value, unless it has control characters other than tabs. -/
def headerValue? (text : String) : Option ByteArray :=
  if text.toUTF8.toList.all fun b => (0x20 ≤ b && b != 0x7f) || b == 0x09 then some text.toUTF8 else none

structure Request where
  headers : Headers
  /-- The attributes that were put with the request, if any were. -/
  context : Option RateLimit.Context

inductive Body where
  | whole (bytes : ByteArray)
  /-- A body whose stream ends in an error. -/
  | broken

structure Response where
  status : Nat
  headers : Headers
  body : Body

namespace Response

/-- A response with a plain text. -/
def plain (status : Nat) (text : String) : Response :=
  ⟨status, [("content-type", "text/plain; charset=utf-8".toUTF8)], .whole text.toUTF8⟩

/-- A response with a JSON value. -/
def json (status : Nat) (v : Json.Value) : Response :=
  ⟨status, [("content-type", "application/json".toUTF8)], .whole v.render.toUTF8⟩

def isServerError (r : Response) : Bool := 500 ≤ r.status && r.status < 600

end Response

end Coordination.Http
