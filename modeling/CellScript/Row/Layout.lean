import CellScript.Row.Error

/-! The columns that all rows of a stream share. -/
namespace CellScript

/-- The columns of a stream: those of the header line, once it has been read, and the extra columns
that statements append, in order. -/
structure Layout where
  extra : List Text
  delimiter : Text
  header : Option (List Text) := none
  deriving DecidableEq, Inhabited

namespace Layout

/-- What separates cells when nothing else is asked for. -/
def defaultDelimiter : Text := ","

/-- A layout without a header. An empty delimiter stands for the default one. -/
def new (extra : List Text) (delimiter : Text) : Layout :=
  { extra, delimiter := if delimiter.isEmpty then defaultDelimiter else delimiter }

def hasHeader (l : Layout) : Bool := l.header.isSome

def lastPosition? (name : Text) : List Text → Option Nat
  | [] => none
  | c :: cs =>
    match lastPosition? name cs with
    | some i => some (i + 1)
    | none => if c = name then some 0 else none

def firstPosition? (name : Text) : List Text → Option Nat
  | [] => none
  | c :: cs => if c = name then some 0 else (firstPosition? name cs).map (· + 1)

/-- The position of a name among the columns of the header and the extra columns; a name that occurs
twice means its last column. -/
def position? (l : Layout) (name : Text) : Option Nat :=
  match l.header with
  | some names => lastPosition? name (names ++ l.extra)
  | none => none

/-- The position of a column in a row that had base cells when it was read. Without a header only
the extra columns have names, and they follow those cells. -/
def resolve (l : Layout) (base : Nat) (name : Text) : Except Row.Error Nat :=
  match l.header with
  | some _ =>
    match l.position? name with
    | some p => .ok p
    | none => .error (.unknownHeader name)
  | none =>
    match firstPosition? name l.extra with
    | some i => .ok (base + i)
    | none => .error (.namesDisabled name)

/-- Record the names of the header line. That happens once. -/
def register (l : Layout) (names : List Text) : Except Row.Error Layout :=
  match l.header with
  | some _ => .error .headerRegistered
  | none => .ok { l with header := some names }

end Layout
end CellScript
