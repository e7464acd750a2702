import CellScript.Text.Printable

/-! Quoted text: how a text is shown between quotes, and how an escaped body is read back. -/
namespace CellScript.Text

/-- The letter of a one-letter escape. -/
def escapeLetter? (c : Char) : Option Char :=
  match c.toNat with
  | 7 => some 'a'
  | 8 => some 'b'
  | 9 => some 't'
  | 10 => some 'n'
  | 11 => some 'v'
  | 12 => some 'f'
  | 13 => some 'r'
  | _ => none

/-- A character between quotes: the quote and the backslash are escaped, what is printable stands
for itself, and the rest is an escape letter or the code point in hexadecimal. -/
def quoteChar (quote : Char) (c : Char) : Text :=
  if c == quote || c == '\\' then ascii '\\' :: String.utf8EncodeChar c
  else if isPrintable c.toNat then String.utf8EncodeChar c
  else match escapeLetter? c with
    | some letter => [ascii '\\', ascii letter]
    | none =>
      if c.toNat < 0x80 then "\\x" ++ hex 2 c.toNat
      else if c.toNat < 0x10000 then "\\u" ++ hex 4 c.toNat
      else "\\U" ++ hex 8 c.toNat

/-- A rune between double quotes; a stray byte is written in hexadecimal. -/
def quoteRune : Rune → Text
  | .char c => quoteChar '"' c
  | .stray b => "\\x" ++ hex 2 b.toNat

def quote (t : Text) : Text := "\"" ++ t.runes.flatMap quoteRune ++ "\""

/-- A character between single quotes. -/
def quoteSingle (c : Char) : Text := "'" ++ quoteChar '\'' c ++ "'"

/-- The number written by exactly count digits of a base below sixteen, and the rest. -/
def readDigits? (base : Nat) : (count : Nat) → Text → (soFar : Nat) → Option (Nat × Text)
  | 0, t, soFar => some (soFar, t)
  | _ + 1, [], _ => none
  | count + 1, b :: rest, soFar =>
    match hexValue? b with
    | some d => if d < base then readDigits? base count rest (soFar * base + d) else none
    | none => none

/-- The bytes a code point escape stands for. -/
def encodeCode? (n : Nat) : Option Text :=
  if h : n.isValidChar then some (String.utf8EncodeChar (Char.ofNatAux n h)) else none

/-- The bytes that an escape stands for and the rest after it. The backslash has been read;
quote is the only quote that may be escaped. -/
def readEscape? (quote : UInt8) : Text → Option (Text × Text)
  | [] => none
  | b :: rest =>
    if b == ascii 'a' then some ([7], rest)
    else if b == ascii 'b' then some ([8], rest)
    else if b == ascii 't' then some ([9], rest)
    else if b == ascii 'n' then some ([10], rest)
    else if b == ascii 'v' then some ([11], rest)
    else if b == ascii 'f' then some ([12], rest)
    else if b == ascii 'r' then some ([13], rest)
    else if b == ascii '\\' || b == quote then some ([b], rest)
    else if b == ascii 'x' then do
      let (n, rest) ← readDigits? 16 2 rest 0
      return ([UInt8.ofNat n], rest)
    else if b == ascii 'u' then do
      let (n, rest) ← readDigits? 16 4 rest 0
      return (← encodeCode? n, rest)
    else if b == ascii 'U' then do
      let (n, rest) ← readDigits? 16 8 rest 0
      return (← encodeCode? n, rest)
    else do
      let (n, rest) ← readDigits? 8 3 (b :: rest) 0
      if n < 256 then some ([UInt8.ofNat n], rest) else none

/-- Read an escaped body, in at most fuel steps. -/
def unescapeSteps? (quote : UInt8) : (fuel : Nat) → Text → Option Text
  | _, [] => some []
  | 0, _ :: _ => none
  | fuel + 1, b :: rest =>
    if b == quote || b == ascii '\n' then none
    else if b == ascii '\\' then do
      let (bytes, rest) ← readEscape? quote rest
      return bytes ++ (← unescapeSteps? quote fuel rest)
    else
      let r := Rune.first b rest
      (unescapeSteps? quote fuel ((b :: rest).drop r.bytes.length)).map
        (String.utf8EncodeChar r.toChar ++ ·)

/-- The text an escaped body stands for, if each of its escapes is known and it holds neither a
line feed nor a bare quote. A stray byte becomes the replacement character. -/
def unescape? (quote : UInt8) (body : Text) : Option Text :=
  unescapeSteps? quote body.length body

end CellScript.Text
