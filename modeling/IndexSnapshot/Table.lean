import IndexSnapshot.Text.Split
import IndexSnapshot.Text.Width

/-!
# Tables in boxes

A table whose columns have fixed widths, drawn with lines around each cell. A line of a cell that
is too wide is cut, and its end is marked.
-/

namespace IndexSnapshot

/-- A table: the widths of its columns, the blank at either side included, and its rows. -/
structure Table where
  widths : List Nat
  rows : List (List String)
  deriving DecidableEq, Repr

namespace Table

/-- A line brought to a width: a line that is too wide is cut, and an ellipsis put behind it, and
any other is filled up with blanks. -/
def fit (width : Nat) (line : List Char) : List Char :=
  let shown :=
    if Text.width line ≤ width then line else Text.takeColumns (width - 1) line ++ ['…']
  shown ++ List.replicate (width - Text.width shown) ' '

/-- A line inside a cell, with a blank at either side. -/
def cellLine (width : Nat) (line : List Char) : List Char := ' ' :: fit (width - 2) line ++ [' ']

/-- The lines of a cell. -/
def cellLines (text : String) : List (List Char) := Text.splitAtMarks (· = '\n') text.toList

/-- The lines of a row; it has as many as its cell with the most lines, and cells with fewer are
left blank at their end. -/
def rowLines (widths : List Nat) (row : List String) : List (List Char) :=
  let cells := row.map cellLines
  let height := (cells.map List.length).foldl max 0
  (List.range height).map fun i ↦
    let drawn := List.zipWith (fun width lines ↦ cellLine width (lines.getD i [])) widths cells
    '│' :: List.intercalate ['│'] drawn ++ ['│']

/-- A line between rows, or at an end of the table, from its left, middle and right joints. -/
def rule (widths : List Nat) (left middle right : Char) : List Char :=
  left :: List.intercalate [middle] (widths.map fun n ↦ List.replicate n '─') ++ [right]

/-- The lines of the table. -/
def lines (t : Table) : List (List Char) :=
  let rows := t.rows.map (rowLines t.widths)
  rule t.widths '┌' '┬' '┐' :: List.intercalate [rule t.widths '├' '┼' '┤'] rows ++
    [rule t.widths '└' '┴' '┘']

/-- The table as a text, each line with its line end. -/
def text (t : Table) : String := String.ofList (t.lines.flatMap fun line ↦ line ++ ['\n'])

end Table

end IndexSnapshot
