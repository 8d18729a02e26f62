/-! # Sets of characters by their edges

A set of code points is kept as the sorted list of the points where membership changes.
-/
namespace Coordination.Text

/-- A set of code points. A point is a member when the number of edges up to it is odd. -/
structure CharSet where
  edges : Array Nat

def CharSet.contains (s : CharSet) (c : Char) : Bool :=
  s.edges.foldl (fun inside edge => if edge ≤ c.toNat then !inside else inside) false

end Coordination.Text
