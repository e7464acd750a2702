import CellScript.Text.Quoted

/-! The text that a string literal stands for. -/
namespace CellScript.Script

/-- The body of a literal without its two quotes. -/
def literalBody (literal : Text) : Text := (literal.drop 1).dropLast

/-- The text of a literal in single quotes: an escaped quote and an escaped backslash stand for
themselves, every other backslash stays. -/
def decodeSingle (body : Text) : Text :=
  Text.replace "\\\\" "\\" (Text.replace "\\'" "'" body)

/-- The text of a literal in double quotes: its escapes are decoded when all of them are known, and
otherwise the body stays as it is. -/
def decodeDouble (body : Text) : Text :=
  (Text.unescape? (Text.ascii '"') body).getD body

/-- The text that a string literal stands for. -/
def decodeLiteral (literal : Text) : Text :=
  if literal.head? = some (Text.ascii '"') then decodeDouble (literalBody literal)
  else decodeSingle (literalBody literal)

end CellScript.Script
