import CellScript.Text.Blank
import CellScript.Text.Letter
import CellScript.Text.Quoted

/-! Reading files of environment variables: lines of a name, an equals sign or a colon, and a value,
with comments, quotes, and references to variables of the same file. -/
namespace CellScript.Settings.Dotenv

/-- Names and values in the order they were first read. -/
abbrev Vars := List (Text × Text)

def Vars.get? (vars : Vars) (name : Text) : Option Text :=
  (vars.find? fun v => v.1 == name).map (·.2)

def Vars.put (vars : Vars) (name value : Text) : Vars :=
  if vars.any fun v => v.1 == name then
    vars.map fun v => if v.1 == name then (name, value) else v
  else vars ++ [(name, value)]

inductive Error where
  | badCharacter (byte : UInt8) (rest : Text)
  | unterminated (start : Text)

def Error.message : Error → Text
  | badCharacter byte rest =>
    "unexpected character " ++ Text.quote (String.utf8EncodeChar (Char.ofNat byte.toNat)) ++
      " in variable name near " ++ rest.quote
  | unterminated start => "unterminated quoted value " ++ start

def isBlankRune (r : Rune) : Bool :=
  match r with
  | .char c => [9, 11, 12, 13, 32, 0x85, 0xA0].contains c.toNat
  | .stray _ => false

/-- The same blanks as single bytes. -/
def isBlankByte (b : UInt8) : Bool := isBlankRune (.char (Char.ofNat b.toNat))

def trimLeft (t : Text) : Text := Text.ofRunes (t.runes.dropWhile isBlankRune)

/-- Runes without the blanks at their two ends, with stray bytes replaced. -/
def trimBoth (rs : List Rune) : Text :=
  Text.ofChars (((rs.dropWhile isBlankRune).reverse.dropWhile isBlankRune).reverse.map Rune.toChar)

/-- Go on to the next line that is neither empty nor a comment. -/
def nextStatement : (fuel : Nat) → Text → Option Text
  | 0, _ => none
  | fuel + 1, t =>
    match Text.ofRunes (t.runes.dropWhile Rune.isSpace) with
    | [] => none
    | b :: rest =>
      if b == Text.ascii '#' then nextStatement fuel (rest.dropWhile (· != Text.ascii '\n'))
      else some (b :: rest)

def isNameByte (b : UInt8) : Bool :=
  let r := Rune.char (Char.ofNat b.toNat)
  b == Text.ascii '_' || b == Text.ascii '.' || r.isLetter || r.isNumeral

/-- The length of a name up to its equals sign or colon. Without one there is no name. -/
def nameLength (whole : Text) : Nat → Text → Except Error (Option Nat)
  | _, [] => .ok none
  | n, b :: rest =>
    if isBlankByte b then nameLength whole (n + 1) rest
    else if b == Text.ascii '=' || b == Text.ascii ':' then .ok (some n)
    else if isNameByte b then nameLength whole (n + 1) rest
    else .error (.badCharacter b whole)

def dropExport (t : Text) : Text :=
  let word := Text.ofString "export"
  if word.isPrefixOf t then
    let rest := t.drop word.length
    if trimLeft rest != rest then trimLeft rest else t
  else t

/-- The name at the front of a statement, and what follows its equals sign. -/
def readName (t : Text) : Except Error (Text × Text) := do
  let t := dropExport (trimLeft t)
  match ← nameLength t 0 t with
  | some n =>
    let name := Text.ofRunes ((Text.runes (t.take n)).reverse.dropWhile Rune.isSpace).reverse
    return (name, trimLeft (t.drop (n + 1)))
  | none => return ([], trimLeft t)

def isVarByte (b : UInt8) : Bool := Text.isUpper b || Text.isDigit b || b == Text.ascii '_'

def dropByte (b : UInt8) (t : Text) : Text := if t.head? == some b then t.drop 1 else t

/-- Replace references to variables; a backslash keeps a dollar sign. -/
def expandVars (vars : Vars) : (fuel : Nat) → Text → Text
  | 0, t => t
  | _ + 1, [] => []
  | fuel + 1, b :: rest =>
    let dollar := Text.ascii '$'
    if b == Text.ascii '\\' && rest.head? == some dollar then
      let after := dropByte (Text.ascii '{') (dropByte (Text.ascii '(') (rest.drop 1))
      let after := dropByte (Text.ascii '}') (after.dropWhile isVarByte)
      rest.take (rest.length - after.length) ++ expandVars vars fuel after
    else if b == dollar then
      let start := dropByte (Text.ascii '{') (dropByte (Text.ascii '(') rest)
      let name := start.takeWhile isVarByte
      let after := dropByte (Text.ascii '}') (start.drop name.length)
      if name.isEmpty then
        dollar :: rest.take (rest.length - after.length) ++ expandVars vars fuel after
      else (vars.get? name).getD [] ++ expandVars vars fuel after
    else b :: expandVars vars fuel rest

/-- Decode the line breaks of a value in double quotes. -/
def expandBreaks : Text → Text
  | a :: b :: rest =>
    if a == Text.ascii '\\' && b != Text.ascii '\n' then
      if b == Text.ascii 'n' then Text.ascii '\n' :: expandBreaks rest
      else if b == Text.ascii 'r' then Text.ascii '\r' :: expandBreaks rest
      else a :: b :: expandBreaks rest
    else a :: expandBreaks (b :: rest)
  | t => t

/-- Drop the backslash in front of everything but a dollar sign. -/
def dropEscapes : Text → Text
  | a :: b :: rest =>
    if a == Text.ascii '\\' && b != Text.ascii '$' then b :: dropEscapes rest
    else a :: dropEscapes (b :: rest)
  | t => t

/-- Where a quoted value ends: at the first quote without a backslash before it. -/
def closing? (quote : UInt8) (before : UInt8) : Text → Option Nat
  | [] => none
  | b :: rest =>
    if b == quote && before != Text.ascii '\\' then some 0
    else (closing? quote b rest).map (· + 1)

/-- Where the comment of an unquoted value starts, if it has one: at the last number sign that
stands after a blank. -/
def commentStart? (line : List Rune) : Option Nat :=
  ((List.range line.length).reverse.find? fun i =>
    0 < i && (line.getD i default).isAscii '#' && isBlankRune (line.getD (i - 1) default))

/-- The value at the front of a text, and the rest. -/
def readValue (vars : Vars) (t : Text) : Except Error (Text × Text) :=
  match t with
  | [] => .ok ([], [])
  | q :: rest =>
    if Text.isQuote q then
      match closing? q q rest with
      | none => .error (.unterminated (t.takeWhile (· != Text.ascii '\n')))
      | some n =>
        let inner := (q :: rest.take n).reverse.dropWhile (· == q) |>.reverse.dropWhile (· == q)
        let value :=
          if q == Text.ascii '"' then
            let t := dropEscapes (expandBreaks inner)
            expandVars vars t.length t
          else inner
        .ok (value, rest.drop (n + 1))
    else
      let line := t.takeWhile fun b => b != Text.ascii '\n' && b != Text.ascii '\r'
      let runes := Text.runes line
      let value := trimBoth (runes.take ((commentStart? runes).getD runes.length))
      .ok (expandVars vars value.length value, t.drop line.length)

def readAll : (fuel : Nat) → Vars → Text → Except Error Vars
  | 0, vars, _ => .ok vars
  | fuel + 1, vars, t =>
    match nextStatement (t.length + 1) t with
    | none => .ok vars
    | some t => do
      let (name, rest) ← readName t
      let (value, rest) ← readValue vars rest
      readAll fuel (vars.put name value) rest

def read (t : Text) : Except Error Vars :=
  let t := Text.replace "\r\n" "\n" t
  readAll (t.length + 1) [] t

end CellScript.Settings.Dotenv
