import CellScript.Text.Ranges
import CellScript.Text.Rune

/-! White space of Unicode 15.0 and its removal from both ends of a text. -/
namespace CellScript.Text

/-- The code points with the property White_Space. -/
def whiteSpace : Ranges :=
  [(0x9, 0xD), (0x20, 0x20), (0x85, 0x85), (0xA0, 0xA0), (0x1680, 0x1680), (0x2000, 0x200A),
    (0x2028, 0x2029), (0x202F, 0x202F), (0x205F, 0x205F), (0x3000, 0x3000)]

end CellScript.Text

namespace CellScript.Rune

/-- A white space character. A stray byte is none. -/
def isSpace : Rune → Bool
  | char c => Text.whiteSpace.has c.toNat
  | stray _ => false

end CellScript.Rune

namespace CellScript.Text

/-- A text without the white space at its two ends. -/
def trim (t : Text) : Text :=
  ofRunes ((t.runes.dropWhile Rune.isSpace).reverse.dropWhile Rune.isSpace).reverse

def blankOnly (t : Text) : Bool := t.trim.isEmpty

end CellScript.Text
