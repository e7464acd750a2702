import CellScript.Number.Reading
import CellScript.Text.Case
import CellScript.Text.Rune

/-! Documents as trees, whatever format they are written in. -/
namespace CellScript.Settings

inductive Scalar where
  | null
  | bool (b : Bool)
  | int (n : Int)
  | float (x : Float)
  | text (t : Text)
  /-- A date or a time of day. -/
  | moment

/-- A document: a single value, a list, or a map with its entries in order. -/
inductive Tree where
  | leaf (s : Scalar)
  | list (items : List Tree)
  | map (entries : List (Text × Tree))
  deriving Inhabited

/-- The last entry of a map under a name in small letters. -/
def Tree.entry? (t : Tree) (name : Text) : Option Tree :=
  match t with
  | map entries => (entries.reverse.find? fun e => Text.lower e.1 == name).map (·.2)
  | _ => none

def readBase? (base : Nat) (t : Text) : Option Nat :=
  if t.isEmpty then none
  else t.foldl (fun soFar b => do
    let n ← soFar
    let d ← Text.hexValue? b
    if d < base then some (n * base + d) else none) (some 0)

/-- An unsigned whole number; a leading zero, alone or with a letter, sets the base. -/
def readUnsigned? (t : Text) : Option Nat :=
  match t with
  | z :: m :: rest =>
    let mark := Text.lowerByte m
    if z != Text.ascii '0' then readBase? 10 t
    else if mark == Text.ascii 'x' then readBase? 16 rest
    else if mark == Text.ascii 'o' then readBase? 8 rest
    else if mark == Text.ascii 'b' then readBase? 2 rest
    else readBase? 8 (m :: rest)
  | _ => readBase? 10 t

/-- A whole number, if it fits into a signed word of 64 bits. -/
def inWord? (n : Int) : Option Int :=
  if -9223372036854775808 ≤ n ∧ n < 9223372036854775808 then some n else none

/-- A whole number in a word of 64 bits, which is signed if the number has a sign. -/
def readWhole? (t : Text) : Option Int :=
  match t with
  | b :: rest =>
    if b == Text.ascii '-' then do inWord? (-((← readUnsigned? rest) : Int))
    else if b == Text.ascii '+' then do inWord? (← readUnsigned? rest)
    else do
      let n ← readUnsigned? t
      if n < 18446744073709551616 then some n else none
  | [] => none

/-- The words for the truth values in any of their usual spellings. -/
def readBool? (t : Text) : Option Bool :=
  let yes : List Text := ["1", "t", "T", "TRUE", "true", "True"]
  let no : List Text := ["0", "f", "F", "FALSE", "false", "False"]
  if yes.contains t then some true else if no.contains t then some false else none

end CellScript.Settings
