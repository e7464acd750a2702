import CellScript.Text.Rune

/-! The characters of YAML texts, and places in a text by line and column. -/
namespace CellScript.Settings.Yaml

def byteOrderMark : Char := '\uFEFF'

def isAllowed (c : Char) : Bool :=
  let n := c.toNat
  n == 9 || n == 10 || n == 13 || (0x20 ≤ n && n ≤ 0x7E) || n == 0x85 || (0xA0 ≤ n && n ≤ 0xFFFD) ||
    0x10000 ≤ n

/-- The blanks inside a line. -/
def isBlank (c : Char) : Bool := c == ' ' || c == '\t'

/-- The characters that end a line: line feed, carriage return, next line, and the separators of
lines and paragraphs. -/
def isBreak (c : Char) : Bool :=
  c == '\n' || c == '\r' || c.toNat == 0x85 || c.toNat == 0x2028 || c.toNat == 0x2029

/-- What stands between words. -/
def isGap (c : Char) : Bool := isBlank c || isBreak c

/-- A break as content: all but the separators are line feeds. -/
def breakText (c : Char) : Char := if c == '\r' || c.toNat == 0x85 then '\n' else c

/-- The characters of names: letters, digits, the underscore and the hyphen. -/
def isNameChar (c : Char) : Bool := c.isAlphanum || c == '_' || c == '-'

/-- Whether a word ends here: at a blank, a break, or the end of the text. -/
def endsWord : List Char → Bool
  | [] => true
  | c :: _ => isGap c

def endsLine : List Char → Bool
  | [] => true
  | c :: _ => isBreak c

/-- The code units of two bytes each. -/
def units? (bigFirst : Bool) : Text → Option (List Nat)
  | [] => some []
  | [_] => none
  | a :: b :: rest =>
    let unit := if bigFirst then a.toNat * 256 + b.toNat else b.toNat * 256 + a.toNat
    (units? bigFirst rest).map (unit :: ·)

/-- The characters of code units. Surrogates come in pairs. -/
def ofUnits? : List Nat → Option (List Char)
  | [] => some []
  | [u] => if u < 0xD800 || 0xE000 ≤ u then some [Char.ofNat u] else none
  | u :: v :: rest =>
    if u < 0xD800 || 0xE000 ≤ u then (ofUnits? (v :: rest)).map (Char.ofNat u :: ·)
    else if u < 0xDC00 && 0xDC00 ≤ v && v < 0xE000 then
      (ofUnits? rest).map (Char.ofNat (0x10000 + (u - 0xD800) * 1024 + (v - 0xDC00)) :: ·)
    else none

/-- The characters of a text in the encoding that its byte order mark names, which is UTF-8 if
there is none. -/
def decode? (t : Text) : Option (List Char) :=
  match t with
  | 0xFF :: 0xFE :: rest => do ofUnits? (← units? false rest)
  | 0xFE :: 0xFF :: rest => do ofUnits? (← units? true rest)
  | _ =>
    if t.isUtf8 then
      match t.runes.map Rune.toChar with
      | c :: rest => some (if c == byteOrderMark then rest else c :: rest)
      | [] => some []
    else none

/-- A carriage return and a line feed are one break. -/
def joinReturns : List Char → List Char
  | '\r' :: '\n' :: rest => '\n' :: joinReturns rest
  | c :: rest => c :: joinReturns rest
  | [] => []

/-- The characters of a text, if all of them are allowed. -/
def characters? (t : Text) : Option (List Char) := do
  let cs ← decode? t
  if cs.all isAllowed then some (joinReturns cs) else none

/-- A place in a text: what follows it, and how much stands before it. -/
structure Place where
  rest : List Char
  index : Nat := 0
  line : Nat := 0
  column : Nat := 0

namespace Place

def next (p : Place) : Place :=
  match p.rest with
  | [] => p
  | c :: rest =>
    if isBreak c then ⟨rest, p.index + 1, p.line + 1, 0⟩
    else ⟨rest, p.index + 1, p.line, p.column + 1⟩

def skip : Nat → Place → Place
  | 0, p => p
  | n + 1, p => skip n p.next

/-- The place of the first character that fails a test. -/
def skipWhile (test : Char → Bool) (p : Place) : Place := p.skip (p.rest.takeWhile test).length

def lineEnd (p : Place) : Place := p.skipWhile fun c => !isBreak c

def sees (p : Place) (c : Char) : Bool := p.rest.head? == some c

/-- The next character, if it passes a test, and the place after it. -/
def take? (test : Char → Bool) (p : Place) : Option Char × Place :=
  match p.rest.head? with
  | some c => if test c then (some c, p.next) else (none, p)
  | none => (none, p)

/-- Whether three equal characters and the end of a word start the line. -/
def seesThree (p : Place) (c : Char) : Bool :=
  p.column == 0 && p.rest.take 3 == [c, c, c] && endsWord (p.rest.drop 3)

/-- Whether a line starts or ends a document. -/
def seesMarker (p : Place) : Bool := p.seesThree '-' || p.seesThree '.'

/-- Go past a comment, if one comes next after blanks. -/
def skipComment (p : Place) : Place :=
  let q := p.skipWhile isBlank
  if q.sees '#' then q.lineEnd else p

end Place
end CellScript.Settings.Yaml
