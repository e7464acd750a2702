import CellScript.Number.Shortest
import CellScript.Text.Position
import CellScript.Text.Quoted

/-! The values that scripts compute and cells receive. -/
namespace CellScript

/-- A value of a script. A list that a variable was bound to carries the place of the statement that
bound it first, so that a list is equal to itself even when it holds NaN. -/
inductive Value where
  | nil
  | bool (b : Bool)
  | int (n : Int64)
  | float (x : Float)
  | str (t : Text)
  | list (origin : Option Text.Position) (items : List Value)
  deriving Inhabited

namespace Value

inductive Kind where
  | nil
  | bool
  | int
  | float
  | str
  | list
  deriving DecidableEq

def Kind.name : Kind → Text
  | nil => "none"
  | bool => "bool"
  | int => "int"
  | float => "float"
  | str => "str"
  | list => "list"

def kind : Value → Kind
  | nil => .nil
  | bool _ => .bool
  | int _ => .int
  | float _ => .float
  | str _ => .str
  | list _ _ => .list

/-- Whether a value counts as true in a condition: zero, NaN excepted, and everything empty do
not. -/
def truthy : Value → Bool
  | nil => false
  | bool b => b
  | int n => n != 0
  | float x => x != 0
  | str t => !t.isEmpty
  | list _ items => !items.isEmpty

/-- The form of a value in a cell. A list has none. -/
def text? : Value → Option Text
  | nil => some []
  | bool b => some (Text.ofBool b)
  | int n => some (Text.ofInt n.toInt)
  | float x => some (Number.ofFloat x)
  | str t => some t
  | list _ _ => none

def toFloat? : Value → Option Float
  | int n => some (Float.ofInt n.toInt)
  | float x => some x
  | _ => none

/-- Remember the statement that binds a fresh list. -/
def bindAt (place : Text.Position) : Value → Value
  | list none items => list (some place) items
  | v => v

mutual

/-- Equality of values of one kind. Lists are equal when they are of one length and either come
from the same binding or are equal item by item. -/
def same : Value → Value → Bool
  | nil, nil => true
  | bool a, bool b => a == b
  | int a, int b => a == b
  | float a, float b => a == b
  | str a, str b => a == b
  | list o xs, list p ys => xs.length == ys.length && ((o.isSome && o == p) || sameAll xs ys)
  | _, _ => false

def sameAll : List Value → List Value → Bool
  | [], [] => true
  | x :: xs, y :: ys => same x y && sameAll xs ys
  | _, _ => false

end

mutual

/-- A value as it is shown inside a message. -/
def shown : Value → Text
  | nil => "interface \x7b\x7d(nil)"
  | bool b => Text.ofBool b
  | int n => Text.ofInt n.toInt
  | float x => Number.floatText Number.Digits.general x
  | str t => Text.quote t
  | list _ items => "[]interface \x7b\x7d\x7b" ++ Text.join ", " (shownAll items) ++ "\x7d"

def shownAll : List Value → List Text
  | [] => []
  | v :: vs => shown v :: shownAll vs

end

end Value
end CellScript
