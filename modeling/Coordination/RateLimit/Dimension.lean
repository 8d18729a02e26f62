import Coordination.Text.Blank

/-! # What requests are counted by

Requests are counted by up to four attributes, the most specific first. A context holds the attributes of one
request, thresholds say how many requests are allowed for each, and a whitelist names values that are not
counted.
-/
namespace Coordination.RateLimit

inductive Dimension where
  | fingerprint
  | ip
  | city
  | country
deriving DecidableEq, Repr

namespace Dimension

def all : List Dimension := [.fingerprint, .ip, .city, .country]

def keyName : Dimension → String
  | .fingerprint => "fingerprint"
  | .ip => "ip"
  | .city => "city"
  | .country => "country"

def title : Dimension → String
  | .fingerprint => "Fingerprint"
  | .ip => "Ip"
  | .city => "City"
  | .country => "Country"

theorem mem_all (d : Dimension) : d ∈ all := by cases d <;> decide

end Dimension

structure Context where
  fingerprint : Option String := none
  ip : Option String := none
  city : Option String := none
  country : Option String := none
deriving DecidableEq, Repr, Inhabited

namespace Context

def given (c : Context) : Dimension → Option String
  | .fingerprint => c.fingerprint
  | .ip => c.ip
  | .city => c.city
  | .country => c.country

/-- The value that counts in a dimension; an empty one is none. -/
def value (c : Context) (d : Dimension) : Option String := (c.given d).filter fun v => !v.isEmpty

end Context

/-- The most requests of one window by dimension. Zero turns a dimension off. -/
structure Thresholds where
  fingerprint : Nat
  ip : Nat
  city : Nat
  country : Nat
deriving DecidableEq, Repr

namespace Thresholds

def standard : Thresholds := ⟨120, 300, 5000, 20000⟩

def number (t : Thresholds) : Dimension → Nat
  | .fingerprint => t.fingerprint
  | .ip => t.ip
  | .city => t.city
  | .country => t.country

def get? (t : Thresholds) (d : Dimension) : Option Nat := if 0 < t.number d then some (t.number d) else none

end Thresholds

/-- Values that are never limited, by dimension. -/
structure Whitelist where
  fingerprints : List String := []
  ips : List String := []
  cities : List String := []
  countries : List String := []
deriving DecidableEq, Repr, Inhabited

namespace Whitelist

def values (w : Whitelist) : Dimension → List String
  | .fingerprint => w.fingerprints
  | .ip => w.ips
  | .city => w.cities
  | .country => w.countries

/-- Whether two texts differ in the case of ASCII letters at most. -/
def sameIgnoringCase (a b : String) : Bool := a.toList.map Char.toLower == b.toList.map Char.toLower

/-- Whether a value is listed, blanks around the listed one and the case of ASCII letters aside. -/
def contains (w : Whitelist) (d : Dimension) (value : String) : Bool :=
  (w.values d).any fun listed => sameIgnoringCase (Text.trim listed) value

end Whitelist

end Coordination.RateLimit
