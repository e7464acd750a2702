import CellScript.Settings.Yaml.Word

/-! Writing texts as YAML scalars: plain where the text reads back as it is, in quotes or as a block
otherwise. -/
namespace CellScript.Settings.Yaml

/-- What stands in the way of the simpler ways of writing a scalar. -/
structure Analysis where
  /-- A mark that would be read as something else than text. -/
  indicator : Bool
  edgeSpace : Bool
  /-- A break next to a blank, a tab, or a character that needs an escape. -/
  escaped : Bool
  trailingSpace : Bool
  hasBreak : Bool

/-- The characters that are written as they are: those of the basic plane without controls and byte
order marks. -/
def isPlainChar (c : Char) : Bool :=
  let n := c.toNat
  n == 10 || (0x20 ≤ n && n ≤ 0x7E) || (0xA0 ≤ n && n ≤ 0xFFFD && n != 0xFEFF)

/-- Whether a character after another one is an indicator, given what follows. -/
def isIndicator (before : Option Char) (c : Char) (after : List Char) : Bool :=
  let blankAfter := match after with
    | [] => true
    | d :: _ => d == ' ' || d == '\t'
  match before with
  | none =>
    "#,[]\x7b\x7d&*!|>'\"%@`".toList.contains c || ((c == '?' || c == ':' || c == '-') && blankAfter)
  | some b =>
    (c == ':' && blankAfter) ||
      (c == '#' && (b == ' ' || b == '\t' || isBreak b))

def hasIndicator (before : Option Char) : List Char → Bool
  | [] => false
  | c :: rest => isIndicator before c rest || hasIndicator (some c) rest

/-- Whether a break and a space stand next to each other, in one of the two orders. -/
def hasPair (first second : Char → Bool) : List Char → Bool
  | a :: b :: rest => (first a && second b) || hasPair first second (b :: rest)
  | _ => false

def analyse (cs : List Char) : Analysis :=
  let isSpace (c : Char) : Bool := c == ' '
  let dashes := cs.take 3 == ['-', '-', '-'] || cs.take 3 == ['.', '.', '.']
  let edge (c : Option Char) : Bool := c.any fun c => isSpace c || isBreak c
  { indicator := dashes || hasIndicator none cs
    edgeSpace := edge cs.head? || edge cs.getLast?
    escaped := hasPair isBreak isSpace cs || hasPair isSpace isBreak cs ||
      cs.any fun c => c == '\t' || !isPlainChar c
    trailingSpace := cs.getLast? == some ' '
    hasBreak := cs.any isBreak }

/-- Words that older readers take for truth values. -/
def oldBools : List Text :=
  ["y", "Y", "yes", "Yes", "YES", "on", "On", "ON", "n", "N", "no", "No", "NO", "off", "Off", "OFF"]

/-- Numbers in base sixty, which older readers take for floating point numbers. -/
def isBaseSixty (t : Text) : Bool :=
  let unsigned := if t.head? == some (Text.ascii '-') || t.head? == some (Text.ascii '+')
    then t.drop 1 else t
  match Text.splitOn ":" unsigned with
  | first :: second :: rest =>
    let isDigits (t : Text) : Bool := t.all fun b => Text.isDigit b || b == Text.ascii '_'
    let isSixty (t : Text) : Bool :=
      !t.isEmpty && t.length ≤ 2 && t.all Text.isDigit && (readBase? 10 t).getD 60 < 60
    let lastWhole (t : Text) : Text := t.takeWhile (· != Text.ascii '.')
    let all := second :: rest
    first.head?.any Text.isDigit && isDigits first && all.dropLast.all isSixty &&
      (all.getLast?.map fun t => isSixty (lastWhole t) &&
        isDigits ((t.drop (lastWhole t).length).drop 1)).getD false
  | _ => false

/-- Whether a plain scalar would be read as the text it is. -/
def readsAsText (t : Text) : Bool :=
  match resolve t with
  | .text _ => !(oldBools.contains t || isBaseSixty t)
  | _ => false

def writeEscaped (c : Char) : Text :=
  if isPlainChar c && !isBreak c && c != '"' && c != '\\' then String.utf8EncodeChar c
  else match escapes.find? fun e => e.2 == c.toNat && e.1 != '\t' with
  | some (letter, _) => [Text.ascii '\\', Text.ascii letter]
  | none =>
    if c.toNat < 0x100 then "\\x" ++ (Text.hex 2 c.toNat).map Text.upperByte
    else if c.toNat < 0x10000 then "\\u" ++ (Text.hex 4 c.toNat).map Text.upperByte
    else "\\U" ++ (Text.hex 8 c.toNat).map Text.upperByte

def writeDouble (cs : List Char) : Text := "\"" ++ cs.flatMap writeEscaped ++ "\""

def writeSingle (t : Text) : Text := "'" ++ Text.replace "'" "''" t ++ "'"

/-- A text with breaks as a literal block, indented by four, without its last break. A break at the
very start is the one that ends the head of the block. -/
def writeLiteral (t : Text) : Text :=
  let startsBreak := t.head? == some (Text.ascii '\n')
  let hint : Text := if startsBreak || t.head? == some (Text.ascii ' ') then "4" else ""
  let ending := (t.reverse.takeWhile (· == Text.ascii '\n')).length
  let chomp : Text := if ending == 0 then "-" else if ending == 1 && t.length != 1 then "" else "+"
  let body := if startsBreak then t.drop 1 else t
  let lines := Text.splitOn "\n" body
  let lines := if lines.getLast? == some [] then lines.dropLast else lines
  let indented (line : Text) : Text := if line.isEmpty then "\n" else "\n    " ++ line
  "|" ++ hint ++ chomp ++ lines.flatMap indented

/-- A text as a scalar: plain if it reads back as it is, and otherwise in the quotes it needs. What
is no UTF-8 is written as binary data. -/
def writeText (t : Text) : Text :=
  let cs := t.runes.map Rune.toChar
  let a := analyse cs
  if !t.isUtf8 then "!!binary " ++ t.base64
  else if t.contains (Text.ascii '\n') then
    if a.trailingSpace || hasPair (· == ' ') isBreak cs || cs.any (fun c => !isPlainChar c && c != '\t')
    then writeDouble cs else writeLiteral t
  else if !readsAsText t then writeDouble cs
  else if !(a.indicator || a.edgeSpace || a.escaped || a.hasBreak) then t
  else if a.escaped then writeDouble cs
  else writeSingle t

end CellScript.Settings.Yaml
