import CellScript.Settings.Tree

/-! Reading and writing JSON. -/
namespace CellScript.Settings.Json

def skipBlanks (t : Text) : Text := t.dropWhile Text.isBlank

/-- The code unit of a hexadecimal escape of four digits. -/
def unit? (t : Text) : Option (Nat × Text) := do
  if (t.take 4).length < 4 then none
  return (← readBase? 16 (t.take 4), t.drop 4)

/-- The character of an escape after a first code unit: a pair of surrogates is one character, and a
lone one is the replacement character. -/
def pairUnit (first : Nat) (rest : Text) : Char × Text :=
  let second : Option (Nat × Text) :=
    match rest with
    | b :: u :: more => if b == Text.ascii '\\' && u == Text.ascii 'u' then unit? more else none
    | _ => none
  if 0xD800 ≤ first ∧ first < 0xDC00 then
    match second with
    | some (low, more) =>
      if 0xDC00 ≤ low ∧ low < 0xE000 then
        (Char.ofNat (0x10000 + (first - 0xD800) * 1024 + (low - 0xDC00)), more)
      else (Rune.replacement, rest)
    | none => (Rune.replacement, rest)
  else if first.isValidChar then (Char.ofNat first, rest)
  else (Rune.replacement, rest)

def escapes : List (Char × Nat) :=
  [('"', 34), ('\\', 92), ('/', 47), ('b', 8), ('f', 12), ('n', 10), ('r', 13), ('t', 9)]

def stringBody : (fuel : Nat) → Text → Text → Option (Text × Text)
  | 0, _, _ => none
  | fuel + 1, soFar, t =>
    match t with
    | [] => none
    | b :: rest =>
      if b == Text.ascii '"' then some (soFar, rest)
      else if b < 0x20 then none
      else if b == Text.ascii '\\' then
        match rest with
        | [] => none
        | e :: rest =>
          match escapes.find? fun x => Text.ascii x.1 == e with
          | some (_, code) => stringBody fuel (soFar ++ [UInt8.ofNat code]) rest
          | none => do
            if e != Text.ascii 'u' then none
            let (first, rest) ← unit? rest
            let (c, rest) := pairUnit first rest
            stringBody fuel (soFar ++ String.utf8EncodeChar c) rest
      else
        let r := Rune.first b rest
        stringBody fuel (soFar ++ String.utf8EncodeChar r.toChar) (t.drop r.bytes.length)

def isNumber (t : Text) : Bool :=
  let unsigned := if t.head? == some (Text.ascii '-') then t.drop 1 else t
  let whole := unsigned.takeWhile Text.isDigit
  let rest := unsigned.drop whole.length
  let wholeFits := !whole.isEmpty && (whole.length == 1 || whole.head? != some (Text.ascii '0'))
  let afterFraction : Option Text :=
    match rest with
    | b :: more =>
      if b == Text.ascii '.' then
        let places := more.takeWhile Text.isDigit
        if places.isEmpty then none else some (more.drop places.length)
      else some rest
    | [] => some []
  let exponentFits : Option Text → Bool
    | none => false
    | some [] => true
    | some (e :: more) =>
      let digits := match more with
        | s :: ds => if s == Text.ascii '-' || s == Text.ascii '+' then ds else more
        | [] => more
      Text.lowerByte e == Text.ascii 'e' && !digits.isEmpty && digits.all Text.isDigit
  wholeFits && exponentFits afterFraction

/-- A number or a word, up to the next mark. -/
def wordLength (t : Text) : Nat :=
  (t.takeWhile fun b =>
    Text.isWord b || b == Text.ascii '-' || b == Text.ascii '+' || b == Text.ascii '.').length

def readWord? (word : Text) : Option Scalar :=
  if word == Text.ofString "true" then some (.bool true)
  else if word == Text.ofString "false" then some (.bool false)
  else if word == Text.ofString "null" then some .null
  else if isNumber word then (Number.readFloat word).toOption.map .float
  else none

mutual

def value : (fuel : Nat) → Text → Option (Tree × Text)
  | 0, _ => none
  | fuel + 1, t =>
    match skipBlanks t with
    | [] => none
    | b :: rest =>
      if b == Text.ascii '"' then do
        let (body, rest) ← stringBody (rest.length + 1) [] rest
        return (.leaf (.text body), rest)
      else if b == Text.ascii '[' then items fuel true [] rest
      else if b == Text.ascii '{' then entries fuel true [] rest
      else do
        let n := wordLength (b :: rest)
        return (.leaf (← readWord? ((b :: rest).take n)), (b :: rest).drop n)

/-- The items of an array. Only an empty one may end before its first item. -/
def items : (fuel : Nat) → (first : Bool) → List Tree → Text → Option (Tree × Text)
  | 0, _, _, _ => none
  | fuel + 1, first, done, t =>
    match first, skipBlanks t with
    | true, 93 :: rest => some (.list [], rest)
    | _, t => do
      let (item, rest) ← value fuel t
      match skipBlanks rest with
      | 44 :: rest => items fuel false (done ++ [item]) rest
      | 93 :: rest => some (.list (done ++ [item]), rest)
      | _ => none

def entries : (fuel : Nat) → (first : Bool) → List (Text × Tree) → Text → Option (Tree × Text)
  | 0, _, _, _ => none
  | fuel + 1, first, done, t =>
    match first, skipBlanks t with
    | true, 125 :: rest => some (.map [], rest)
    | _, 34 :: rest => do
      let (name, rest) ← stringBody (rest.length + 1) [] rest
      match skipBlanks rest with
      | 58 :: rest =>
        let (item, rest) ← value fuel rest
        let done := done ++ [(name, item)]
        match skipBlanks rest with
        | 44 :: rest => entries fuel false done rest
        | 125 :: rest => some (.map done, rest)
        | _ => none
      | _ => none
    | _, _ => none

end

def read? (t : Text) : Option Tree := do
  let (tree, rest) ← value (t.length + 1) t
  if (skipBlanks rest).isEmpty then some tree else none

/-- A character inside a string. Besides quotes and controls, the marks of markup are escaped. -/
def writeChar (c : Char) : Text :=
  if c == '"' || c == '\\' then [Text.ascii '\\', Text.ascii c]
  else if c == '\n' then "\\n"
  else if c == '\r' then "\\r"
  else if c == '\t' then "\\t"
  else if c.toNat < 0x20 || c == '<' || c == '>' || c == '&' || c.toNat == 0x2028 ||
      c.toNat == 0x2029 then "\\u" ++ Text.hex 4 c.toNat
  else String.utf8EncodeChar c

/-- A text as a string. A stray byte is written as the escape of the replacement character. -/
def writeString (t : Text) : Text :=
  let write : Rune → Text
    | .char c => writeChar c
    | .stray _ => "\\ufffd"
  "\"" ++ t.runes.flatMap write ++ "\""

end CellScript.Settings.Json
