import CellScript.Settings.Dotenv

/-! Settings as assignments: a name, an equals sign or a colon, and a value, which may stand in quotes
and refer to variables. Every line that is neither empty nor a comment is one. -/
namespace CellScript.Settings.Assignments
open Dotenv

/-- The lines of a text. A carriage return, a line feed, or both in this order end a line. -/
def splitLines : Text → List Text
  | [] => [[]]
  | 13 :: 10 :: rest => [] :: splitLines rest
  | b :: rest =>
    if b == Text.ascii '\n' || b == Text.ascii '\r' then [] :: splitLines rest
    else Text.consFirst b (splitLines rest)

def lastIndex? (b : UInt8) (t : Text) : Option Nat :=
  let after := (t.reverse.takeWhile (· != b)).length
  if after < t.length then some (t.length - 1 - after) else none

/-- Whether the byte before a position is a backslash. -/
def escapedAt (t : Text) (i : Nat) : Bool := 0 < i && t[i - 1]? == some (Text.ascii '\\')

/-- The quote that a line opens and does not close. -/
def openQuote? (line : Text) : Option UInt8 :=
  let upTo (c : Char) : Nat := (line.takeWhile (· != Text.ascii c)).length
  let sign := if upTo '=' < line.length then upTo '=' else upTo ':'
  match Text.trim (line.drop (sign + 1)) with
  | q :: rest =>
    let closed := match lastIndex? q (Text.trim rest) with
      | some i => !escapedAt (q :: rest) (i + 1)
      | none => false
    if 0 < sign && Text.isQuote q && !closed then some q else none
  | [] => none

/-- Join a line with those that follow up to the one that closes its quote. -/
def closeQuote? (q : UInt8) (line : Text) : List Text → Option (Text × List Text)
  | [] => none
  | next :: rest =>
    let joined := line ++ "\n" ++ next
    match lastIndex? q next with
    | some i => if escapedAt next i then closeQuote? q joined rest else some (joined, rest)
    | none => closeQuote? q joined rest

/-- The bytes between the parts of an assignment. -/
def isGap (b : UInt8) : Bool := Text.isBlank b || b == 12

/-- Whether only blanks and a comment are left. -/
def isTail (t : Text) : Bool :=
  match t.dropWhile isGap with
  | [] => true
  | b :: rest => b == Text.ascii '#' && !rest.contains (Text.ascii '\n')

/-- A value in quotes: up to the last quote behind which nothing but a comment follows. -/
def quotedValue? (q : UInt8) (t : Text) : Option Text :=
  let ends := (List.range t.length).reverse.find? fun i =>
    0 < i && t[i]? == some q && isTail (t.drop (i + 1))
  if t.head? == some q then ends.map fun i => t.take (i + 1) else none

/-- The value at the front of what is left of an assignment. It may be missing. -/
def value? (t : Text) : Option Text :=
  let run := t.takeWhile fun b => b != Text.ascii '#' && b != Text.ascii '\n'
  let bare := if isTail (t.drop run.length) then some run else none
  ((quotedValue? (Text.ascii '\'') t).or (quotedValue? (Text.ascii '"') t)).or bare

/-- A name and a value. Blanks may stand around an equals sign, and one at least behind a colon. -/
def nameValue? (t : Text) : Option (Text × Text) := do
  let name := t.takeWhile fun b => Text.isWord b || b == Text.ascii '.'
  let rest := t.drop name.length
  if name.isEmpty then none
  let behind (t : Text) : Nat := (t.takeWhile isGap).length
  match rest.dropWhile isGap with
  | b :: more =>
    if b == Text.ascii '=' then
      let starts := (List.range (behind more + 1)).reverse
      return (name, ← starts.findSome? fun n => value? (more.drop n))
    else if rest.head? == some (Text.ascii ':') then
      let starts := (List.range (behind more)).map (· + 1)
      return (name, ← starts.findSome? fun n => value? (more.drop n))
    else none
  | [] => none

/-- A name and a value, perhaps behind the word "export". -/
def assignment? (t : Text) : Option (Text × Text) :=
  let t := t.dropWhile isGap
  let word := Text.ofString "export"
  let rest := t.drop word.length
  let exported := if word.isPrefixOf t && rest.head?.any isGap then nameValue? (rest.dropWhile isGap)
    else none
  exported.or (nameValue? t)

/-- The name of a variable behind a dollar sign, and the length of the reference. -/
def reference (t : Text) : Text × Nat :=
  let start := dropByte (Text.ascii '{') t
  let name := start.takeWhile isVarByte
  let after := dropByte (Text.ascii '}') (start.drop name.length)
  (name, t.length - after.length)

/-- Replace the references to variables. A backslash keeps a reference as it is. -/
def expand (lookup : Text → Text) : (fuel : Nat) → Text → Text
  | 0, t => t
  | _ + 1, [] => []
  | fuel + 1, b :: rest =>
    let dollar := Text.ascii '$'
    if b == Text.ascii '\\' && rest.head? == some dollar then
      let length := (reference (rest.drop 1)).2 + 1
      rest.take length ++ expand lookup fuel (rest.drop length)
    else if b == dollar then
      let (name, length) := reference rest
      let here := if name.isEmpty then b :: rest.take length else lookup name
      here ++ expand lookup fuel (rest.drop length)
    else b :: expand lookup fuel rest

/-- The text of a value. Single quotes keep everything as it is; in double quotes escapes are
decoded. -/
def decode (lookup : Text → Text) (value : Text) : Text :=
  let value := Text.trim value
  let inner := (value.drop 1).dropLast
  let quotedBy (c : Char) : Bool :=
    2 ≤ value.length && value.head? == some (Text.ascii c) && value.getLast? == some (Text.ascii c)
  if quotedBy '\'' then inner
  else if quotedBy '"' then
    let broken := Text.replace "\\r" "\r" (Text.replace "\\n" "\n" inner)
    let plain := dropEscapes broken
    expand lookup plain.length plain
  else expand lookup value.length value

/-- Read lines to the end. A variable of the environment is meant before one of the lines above. -/
def readLines (env : Vars) : (fuel : Nat) → Vars → List Text → Option Vars
  | 0, done, _ => some done
  | _ + 1, done, [] => some done
  | fuel + 1, done, line :: rest => do
    let line := Text.trim line
    if line.isEmpty || line.head? == some (Text.ascii '#') then readLines env fuel done rest
    else
      let (line, rest) ← match openQuote? line with
        | some q => closeQuote? q line rest
        | none => pure (line, rest)
      let (name, value) ← assignment? line
      let lookup (name : Text) : Text := ((env.get? name).or (done.get? name)).getD []
      readLines env fuel (done.put name (decode lookup value)) rest

def read? (env : Vars) (t : Text) : Option Vars :=
  let mark : Text := [0xEF, 0xBB, 0xBF]
  let lines := splitLines (if mark.isPrefixOf t then t.drop 3 else t)
  readLines env (lines.length + 1) [] lines

end CellScript.Settings.Assignments
