/-! Text as a sequence of bytes, with the splitting, joining and replacing that rows and code use. -/
namespace CellScript

/-- Text is a finite sequence of bytes. It is usually UTF-8, but nothing relies on that. -/
abbrev Text := List UInt8

namespace Text

def ofString (s : String) : Text := s.toUTF8.data.toList

instance : Coe String Text := ⟨ofString⟩

abbrev ascii (c : Char) : UInt8 := c.toUInt8

/-- The bytes that separate words in statements: space, tab, line feed, carriage return. -/
def isBlank (b : UInt8) : Bool :=
  b == ascii ' ' || b == ascii '\t' || b == ascii '\n' || b == ascii '\r'

def isDigit (b : UInt8) : Bool := ascii '0' ≤ b && b ≤ ascii '9'

def isLower (b : UInt8) : Bool := ascii 'a' ≤ b && b ≤ ascii 'z'

def isUpper (b : UInt8) : Bool := ascii 'A' ≤ b && b ≤ ascii 'Z'

def isWord (b : UInt8) : Bool := b == ascii '_' || isLower b || isUpper b || isDigit b

def isQuote (b : UInt8) : Bool := b == ascii '"' || b == ascii '\''

/-- An ASCII capital becomes its small letter; every other byte is kept. -/
def lowerByte (b : UInt8) : UInt8 := if isUpper b then b + 32 else b

/-- An ASCII small letter becomes its capital; every other byte is kept. -/
def upperByte (b : UInt8) : UInt8 := if isLower b then b - 32 else b

/-- Put a byte in front of the first piece. -/
def consFirst (b : UInt8) : List Text → List Text
  | [] => [[b]]
  | piece :: pieces => (b :: piece) :: pieces

/-- Cut at every occurrence of sep, after passing over the first skip bytes. -/
def splitFrom (sep : Text) : Nat → Text → List Text
  | _, [] => [[]]
  | skip + 1, _ :: rest => splitFrom sep skip rest
  | 0, b :: rest =>
    if sep.isPrefixOf (b :: rest) then [] :: splitFrom sep (sep.length - 1) rest
    else consFirst b (splitFrom sep 0 rest)

/-- The pieces between the occurrences of a non-empty separator, taken from the left without
overlap. There is always one piece more than there are occurrences. -/
def splitOn (sep t : Text) : List Text := splitFrom sep 0 t

def join (sep : Text) (pieces : List Text) : Text := sep.intercalate pieces

/-- Replace the occurrences of old, after passing over the first skip bytes. -/
def replaceFrom (old new : Text) : Nat → Text → Text
  | _, [] => []
  | skip + 1, _ :: rest => replaceFrom old new skip rest
  | 0, b :: rest =>
    if old.isPrefixOf (b :: rest) then new ++ replaceFrom old new (old.length - 1) rest
    else b :: replaceFrom old new 0 rest

/-- Every occurrence of a non-empty old, taken from the left without overlap, becomes new. -/
def replace (old new t : Text) : Text := replaceFrom old new 0 t

/-- Drop one occurrence of ending from the end, if it stands there. -/
def dropEnding (ending t : Text) : Text :=
  if ending.isSuffixOf t then t.take (t.length - ending.length) else t

/-- The lines of a text: a line feed ends a line, and nothing after the last one is no line. -/
def lines (t : Text) : List Text :=
  let pieces := splitOn [ascii '\n'] t
  if pieces.getLast? == some [] then pieces.dropLast else pieces

def ofNat (n : Nat) : Text := (Nat.toDigits 10 n).map Char.toUInt8

/-- Decimal digits with a minus sign in front of a negative number. -/
def ofInt : Int → Text
  | .ofNat n => ofNat n
  | .negSucc n => ascii '-' :: ofNat (n + 1)

def ofBool (b : Bool) : Text := if b then "true" else "false"

/-- One hexadecimal digit in small letters. -/
def hexDigit (n : Nat) : UInt8 :=
  if n < 10 then ascii '0' + UInt8.ofNat n else ascii 'a' + UInt8.ofNat (n - 10)

/-- The lowest width hexadecimal digits of a number. -/
def hex : (width : Nat) → Nat → Text
  | 0, _ => []
  | width + 1, n => hex width (n / 16) ++ [hexDigit (n % 16)]

/-- The value of a hexadecimal digit in either case. -/
def hexValue? (b : UInt8) : Option Nat :=
  if isDigit b then some (b.toNat - 48)
  else if ascii 'a' ≤ lowerByte b && lowerByte b ≤ ascii 'f' then some ((lowerByte b).toNat - 87)
  else none

end Text
end CellScript
