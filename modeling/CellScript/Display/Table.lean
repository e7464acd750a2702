import CellScript.Display.Block

/-! Tables with columns of even width. -/
namespace CellScript.Display

/-- The columns of the widest line of a cell. -/
def cellWidth (cell : Text) : Nat := widest (Text.splitOn "\n" cell)

def maxWidths : List Nat → List Nat → List Nat
  | [], ws => ws
  | vs, [] => vs
  | v :: vs, w :: ws => max v w :: maxWidths vs ws

def columnWidths (rows : List (List Text)) : List Nat :=
  (rows.map fun row => row.map cellWidth).foldl maxWidths []

/-- The lines of a row: as many as its highest cell has. A short row ends after its last cell. -/
def rowLines (widths : List Nat) (row : List Text) : List Text :=
  let cells := row.map (Text.splitOn "\n")
  let height := (cells.map List.length).foldl max 0
  (List.range height).map fun i =>
    Text.join " | " ((cells.zip widths).map fun (lines, width) => padTo width (lines.getD i []))

/-- A table with an empty line after it. -/
def table (rows : List (List Text)) : Text :=
  let widths := columnWidths rows
  (rows.flatMap (rowLines widths)).flatMap (· ++ [Text.ascii '\n']) ++ [Text.ascii '\n']

end CellScript.Display
