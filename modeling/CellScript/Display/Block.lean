import CellScript.Text.Width

/-! Messages and titles as blocks of lines of one width. -/
namespace CellScript.Display

def padTo (width : Nat) (t : Text) : Text := t ++ List.replicate (width - t.width) (Text.ascii ' ')

def widest (lines : List Text) : Nat := (lines.map Text.width).foldl max 0

/-- The lines of a block: tabs become four spaces, and short lines are filled up. -/
def blockLines (t : Text) : List Text :=
  let t := Text.replace "\r\n" "\n" (Text.replace "\t" "    " t)
  let lines := Text.splitOn "\n" t
  lines.map (padTo (widest lines))

def block (t : Text) : Text := Text.join "\n" (blockLines t)

/-- Signs in front of messages. -/
inductive Mark where
  | success
  | failure
  | note

def Mark.sign : Mark → Text
  | success => "✓ "
  | failure => "✗ "
  | note => "ℹ "

def message (mark : Mark) (t : Text) : Text := block (mark.sign ++ t) ++ "\n"

/-- A warning stays as it is after its sign. -/
def warning (t : Text) : Text := "⚠ " ++ t ++ "\n"

/-- A title with a line under it. -/
def heading (title : Text) : Text :=
  let lines := blockLines title
  let rule := (List.replicate (widest lines) (Text.ofString "─")).flatten
  Text.join "\n" lines ++ "\n" ++ rule ++ "\n"

end CellScript.Display
