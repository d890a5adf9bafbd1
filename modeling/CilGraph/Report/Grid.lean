import CilGraph.Text.Blank
import CilGraph.Text.Width

namespace CilGraph
namespace Report

/-!
# Text tables

A grid has titled columns and rows of cells.  Every column is as wide as its
widest cell, its title included, and two blanks stand between columns.  A cell
whose text has several lines makes its row as many lines high.  Blanks at the
end of a line are dropped, and a line begins with a margin of two blanks, which
stays even if nothing follows it.
-/

/-- The side of its column at which a cell stands. -/
inductive Side where
  | left
  | right
deriving DecidableEq, Repr

/-- A column of a grid. -/
structure Column where
  title : String
  side : Side
deriving DecidableEq, Repr

/-- A text table.  Each row has a cell for every column. -/
structure Grid where
  columns : List Column
  rows : List (List String)
deriving Repr

namespace Grid

/-- The lines of a cell, of which there is at least one. -/
def cellLines (cell : String) : List (List Char) :=
  cell.toList.splitOnP (· == '\n')

/-- The number of columns that a cell takes on the screen. -/
def cellWidth (cell : String) : Nat :=
  ((cellLines cell).map Text.width).foldl max 0

/-- Fill a line of a cell up to the width of its column. -/
def fill (side : Side) (width : Nat) (line : List Char) : List Char :=
  let gap := List.replicate (width - Text.width line) ' '
  match side with
  | .left => line ++ gap
  | .right => gap ++ line

/-- All rows, the titles first. -/
def allRows (grid : Grid) : List (List String) :=
  grid.columns.map Column.title :: grid.rows

/-- The width of the column at a position. -/
def widthAt (grid : Grid) (index : Nat) : Nat :=
  (grid.allRows.map (fun row => cellWidth (row.getD index ""))).foldl max 0

/-- The width of each column. -/
def widths (grid : Grid) : List Nat :=
  (List.range grid.columns.length).map grid.widthAt

/-- One line of a row. -/
def line (shapes : List (Side × Nat)) (cells : List (List (List Char))) (index : Nat) : String :=
  let parts := List.zipWith
    (fun shape cell => fill shape.1 shape.2 (cell.getD index [])) shapes cells
  "  " ++ String.ofList (Text.dropTrailing Text.isBlank (List.intercalate [' ', ' '] parts))

/-- The lines of a row. -/
def rowLines (shapes : List (Side × Nat)) (row : List String) : List String :=
  let cells := row.map cellLines
  let height := (cells.map List.length).foldl max 0
  (List.range height).map (line shapes cells)

/-- The lines of a grid. -/
def lines (grid : Grid) : List String :=
  let shapes := (grid.columns.map Column.side).zip grid.widths
  grid.allRows.flatMap (rowLines shapes)

end Grid
end Report
end CilGraph
