import Coordination.Text.Width

/-! # Tables

A table has a line of titles and rows under it, in a frame with round corners. Each column is as wide as its widest
line, and a cell has as many lines as its text.
-/
namespace Coordination.Console.Table

/-- The lines of a cell. -/
def cellLines (cell : String) : List String := cell.splitOn "\n"

def cellWidth (cell : String) : Nat := ((cellLines cell).map Text.columns).foldl max 0

/-- The width of each column over all rows. -/
def widths (rows : List (List String)) : List Nat :=
  rows.foldl (fun ws row => List.zipWith max ws (row.map cellWidth))
    ((rows.head?.getD []).map fun _ => 0)

/-- A horizontal line between two ends. -/
def rule (left cross right : String) (ws : List Nat) : String :=
  left ++ String.intercalate cross (ws.map fun w => String.ofList (List.replicate (w + 2) '─')) ++ right

/-- One line of text across the columns. -/
def lineOf (ws : List Nat) (cells : List String) : String :=
  "│ " ++ String.intercalate " │ " (List.zipWith Text.padRight ws cells) ++ " │"

/-- The lines of a row; shorter cells are followed by blanks. -/
def rowLines (ws : List Nat) (row : List String) : List String :=
  let cells := row.map cellLines
  let height := (cells.map List.length).foldl max 1
  (List.range height).map fun i => lineOf ws (cells.map fun c => c.getD i "")

/-- A table with its titles. -/
def render (titles : List String) (rows : List (List String)) : String :=
  let ws := widths (titles :: rows)
  String.intercalate "\n" (
    [rule "╭" "┬" "╮" ws] ++ rowLines ws titles ++ [rule "├" "┼" "┤" ws]
      ++ rows.flatMap (rowLines ws) ++ [rule "╰" "┴" "╯" ws])

end Coordination.Console.Table
