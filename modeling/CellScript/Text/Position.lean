import CellScript.Text.Rune

/-! Places in a text by line and column. -/
namespace CellScript.Text

/-- A line and a column, both counted from one; columns count runes. -/
structure Position where
  line : Nat := 1
  column : Nat := 1
  deriving DecidableEq, Inhabited

namespace Position

/-- The place after a rune: a line feed starts the next line. -/
def after (p : Position) (r : Rune) : Position :=
  if r.isAscii '\n' then ⟨p.line + 1, 1⟩ else ⟨p.line, p.column + 1⟩

def afterAll (p : Position) (rs : List Rune) : Position := rs.foldl after p

def text (p : Position) : Text := ofNat p.line ++ ":" ++ ofNat p.column

end Position
end CellScript.Text
