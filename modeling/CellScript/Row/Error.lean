import CellScript.Number.Decimal
import CellScript.Text.Blank
import CellScript.Text.Quoted

/-! Keys of cells, and what can go wrong when a row is read or written. -/
namespace CellScript

/-- A cell's address: a position, counted from the end when negative, or a column name. -/
inductive Key where
  | index (i : Int)
  | name (n : Text)
  deriving DecidableEq, Inhabited

namespace Key

def isName : Key → Bool
  | index _ => false
  | name _ => true

/-- A key as it is shown in messages. -/
def text : Key → Text
  | index i => Text.ofInt i
  | name n => Text.quote n

end Key

inductive NumberKind where
  | int
  | float
  deriving DecidableEq

namespace Row

/-- A cell that a message speaks of: one cell by its key, or one of several in a slice. -/
inductive Source where
  | cell (key : Key)
  | slice
  deriving DecidableEq

def Source.text : Source → Text
  | cell key => key.text
  | slice => "slice"

inductive Error where
  | unknownHeader (name : Text)
  | namesDisabled (name : Text)
  | missingCell (name : Text) (position cells : Nat)
  | outOfRange (index : Int) (cells : Nat)
  | notNext (index : Int) (cells : Nat)
  | unreadable (source : Source) (cell : Text) (kind : NumberKind) (fault : Number.Fault)
  | unstorable (key : Key)
  | headerRegistered
  deriving DecidableEq

/-- The name of a number's reader in messages. -/
def readerName : NumberKind → Text
  | .int => "strconv.ParseInt"
  | .float => "strconv.ParseFloat"

def faultText : Number.Fault → Text
  | .malformed => "invalid syntax"
  | .tooLarge => "value out of range"

def Error.message : Error → Text
  | unknownHeader name => "unknown header: " ++ name.quote
  | namesDisabled name =>
    "header mode is disabled: column " ++ name.quote ++ " cannot be referenced by name"
  | missingCell name position cells =>
    "index out of range: column " ++ name.quote ++ " is at " ++ Text.ofNat position ++
      " but the row has " ++ Text.ofNat cells ++ " cells"
  | outOfRange index cells =>
    "index out of range: " ++ Text.ofInt index ++ " (row has " ++ Text.ofNat cells ++ " cells)"
  | notNext index cells =>
    "index out of range: " ++ Text.ofInt index ++ " (row has " ++ Text.ofNat cells ++
      " cells, only the next position can be appended)"
  | unreadable source cell kind fault =>
    "cast error: cell " ++ source.text ++ " value " ++ cell.quote ++ ": " ++ readerName kind ++
      ": parsing " ++ cell.trim.quote ++ ": " ++ faultText fault
  | unstorable key => "cast error: cannot store []interface \x7b\x7d at " ++ key.text
  | headerRegistered => "header already registered"

end Row
end CellScript
