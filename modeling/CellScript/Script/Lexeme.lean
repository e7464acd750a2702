import CellScript.Text.Letter
import CellScript.Text.Position

/-! The lexemes of scripts. At each place the kinds are tried in a fixed order and the first that
fits is taken, as long as it goes. -/
namespace CellScript.Script

inductive LexemeKind where
  | float
  | int
  | string
  | name
  | operator
  | punctuation
  deriving DecidableEq

structure Lexeme where
  kind : LexemeKind
  text : Text
  pos : Text.Position
  deriving DecidableEq

/-- How many digits stand at the front. -/
def digitRun (rs : List Rune) : Nat := (rs.takeWhile Rune.isDigit).length

/-- The length of an exponent at the front: a letter e, an optional sign, and digits. -/
def exponentLength : List Rune → Nat
  | [] => 0
  | e :: rest =>
    if e.isAscii 'e' || e.isAscii 'E' then
      let sign := match rest with
        | s :: _ => if s.isAscii '-' || s.isAscii '+' then 1 else 0
        | [] => 0
      let digits := digitRun (rest.drop sign)
      if digits = 0 then 0 else 1 + sign + digits
    else 0

/-- A number with a point or an exponent. Digits may be missing on one side of the point. -/
def floatLength? (rs : List Rune) : Option Nat :=
  let whole := digitRun rs
  match rs.drop whole with
  | [] => none
  | r :: rest =>
    if r.isAscii '.' then
      let places := digitRun rest
      if whole = 0 ∧ places = 0 then none
      else some (whole + 1 + places + exponentLength (rest.drop places))
    else
      let exponent := exponentLength (r :: rest)
      if whole = 0 ∨ exponent = 0 then none else some (whole + exponent)

def intLength? (rs : List Rune) : Option Nat :=
  if digitRun rs = 0 then none else some (digitRun rs)

/-- The length of a literal after its opening quote. A backslash takes the rune after it along, which
is no line feed. -/
def stringRest? (quote : Rune) : List Rune → Option Nat
  | [] => none
  | r :: rest =>
    if r.isAscii '\\' then
      match rest with
      | [] => none
      | s :: rest => if s.isAscii '\n' then none else (stringRest? quote rest).map (· + 2)
    else if r = quote then some 1
    else (stringRest? quote rest).map (· + 1)

def stringLength? : List Rune → Option Nat
  | [] => none
  | r :: rest =>
    if r.isAscii '"' || r.isAscii '\'' then (stringRest? r rest).map (· + 1) else none

def startsName (r : Rune) : Bool := r.isAscii '_' || r.isLetter

def continuesName (r : Rune) : Bool := startsName r || r.isNumeral

def nameLength? : List Rune → Option Nat
  | [] => none
  | r :: rest => if startsName r then some (1 + (rest.takeWhile continuesName).length) else none

/-- The operators of two characters. -/
def longOperators : List (Char × Char) :=
  [('=', '='), ('!', '='), ('<', '='), ('>', '='), ('&', '&'), ('|', '|'), ('/', '/')]

/-- The operators of one character. -/
def shortOperators : List Char := ['-', '+', '*', '/', '%', '<', '>', '=', '!']

def operatorLength? : List Rune → Option Nat
  | [] => none
  | r :: rest =>
    if longOperators.any fun op => r.isAscii op.1 && rest.head? == some (.char op.2) then some 2
    else if shortOperators.any r.isAscii then some 1
    else none

def punctuationMarks : List Char := ['(', ')', '[', ']', ':', ';', '.', ',']

def punctuationLength? : List Rune → Option Nat
  | [] => none
  | r :: _ => if punctuationMarks.any r.isAscii then some 1 else none

/-- What stands between lexemes. -/
def isGap (r : Rune) : Bool := r.isAscii ' ' || r.isAscii '\t' || r.isAscii '\r' || r.isAscii '\n'

/-- The kind and the length of the lexeme at the front. -/
def nextLexeme? (rs : List Rune) : Option (LexemeKind × Nat) :=
  (floatLength? rs).map (.float, ·) <|>
  (intLength? rs).map (.int, ·) <|>
  (stringLength? rs).map (.string, ·) <|>
  (nameLength? rs).map (.name, ·) <|>
  (operatorLength? rs).map (.operator, ·) <|>
  (punctuationLength? rs).map (.punctuation, ·)

/-- The lexemes of runes that stand at a place, after passing over the first skip of them. -/
def lexFrom (pos : Text.Position) : (skip : Nat) → List Rune → Option (List Lexeme)
  | _, [] => some []
  | skip + 1, r :: rest => lexFrom (pos.after r) skip rest
  | 0, r :: rest =>
    if isGap r then lexFrom (pos.after r) 0 rest
    else
      match nextLexeme? (r :: rest) with
      | none => none
      | some (kind, length) =>
        (lexFrom (pos.after r) (length - 1) rest).map
          (⟨kind, Text.ofRunes ((r :: rest).take length), pos⟩ :: ·)

/-- The lexemes of a source. There are none when some part of it fits no kind. -/
def lex? (src : Text) : Option (List Lexeme) := lexFrom {} 0 src.runes

end CellScript.Script
