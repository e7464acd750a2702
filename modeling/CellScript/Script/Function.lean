import CellScript.Number.Power
import CellScript.Number.Reading
import CellScript.Script.Error
import CellScript.Text.Blank
import CellScript.Text.Case

/-! The functions that scripts can call. -/
namespace CellScript.Script

inductive Function where
  | len
  | str
  | int
  | float
  | abs
  | round
  | min
  | max
  | upper
  | lower
  | strip
  deriving DecidableEq

namespace Function

def names : List (Text × Function) :=
  [("len", len), ("str", str), ("int", int), ("float", float), ("abs", abs), ("round", round),
    ("min", min), ("max", max), ("upper", upper), ("lower", lower), ("strip", strip)]

def ofName? (name : Text) : Option Function := (names.find? fun f => f.1 == name).map (·.2)

/-- The only argument of a function. -/
def single : List Value → Except ArgumentFault Value
  | [v] => .ok v
  | args => .error (.count 1 args.length)

/-- The number of characters of a text or of items of a list. -/
def length : Value → Except ArgumentFault Value
  | .str t => .ok (.int (Int64.ofNat t.runes.length))
  | .list _ items => .ok (.int (Int64.ofNat items.length))
  | v => .error (.noLength v.kind)

def toText : Value → Except ArgumentFault Value
  | .nil => .ok (.str "None")
  | v =>
    match v.text? with
    | some t => .ok (.str t)
    | none => .error (.noText v.shown)

/-- A whole number. The fraction of a floating point number is dropped; one that no word can hold becomes
the least word. -/
def toInt : Value → Except ArgumentFault Value
  | .int n => .ok (.int n)
  | .float x => .ok (.int (Number.toWord x))
  | .bool b => .ok (.int (if b then 1 else 0))
  | .str t =>
    match Number.readInt t.trim with
    | .ok n => .ok (.int n)
    | .error _ => .error (.literal t)
  | v => .error (.notInt v.kind)

def toFloat : Value → Except ArgumentFault Value
  | .int n => .ok (.float (Float.ofInt n.toInt))
  | .float x => .ok (.float x)
  | .str t =>
    match Number.readFloat t.trim with
    | .ok x => .ok (.float x)
    | .error _ => .error (.literal t)
  | v => .error (.notFloat v.kind)

/-- The magnitude of a number. The least word is its own. -/
def magnitude : Value → Except ArgumentFault Value
  | .int n => .ok (.int (if n < 0 then -n else n))
  | .float x => .ok (.float x.abs)
  | v => .error (.noMagnitude v.kind)

/-- Round to a whole number, or to a number of decimal places when that is given. Whole numbers
stay. -/
def rounded (places : Option Int64) : Value → Except ArgumentFault Value
  | .int n => .ok (.int n)
  | .float x =>
    match places with
    | none => .ok (.int (Number.toWord (Number.roundEven x)))
    | some places => .ok (.float (Number.roundPlaces x places))
  | v => .error (.notRounded v.kind)

/-- Round, with the decimal places as an optional second argument. -/
def roundArgs : List Value → Except ArgumentFault Value
  | [v] => rounded none v
  | [v, .int places] => rounded (some places) v
  | [_, places] => .error (.places places.kind)
  | args => .error (.roundCount args.length)

/-- The values that an extreme is taken of: the arguments, or the items of a single list. -/
def sequence : List Value → List Value
  | [.list _ items] => items
  | args => args

/-- The last of the strictly better values. -/
def best (op : Compare) : Value → List Value → Except Value.Fault Value
  | found, [] => .ok found
  | found, v :: rest => do
    let better ← Value.compare op v found
    best op (if better then v else found) rest

def extreme (name : Text) (op : Compare) (args : List Value) : Except ArgumentFault Value :=
  match sequence args with
  | [] => .error (.emptySequence name)
  | v :: rest =>
    match best op v rest with
    | .ok found => .ok found
    | .error fault => .error (.operands fault)

def onText (name : Text) (f : Text → Text) (args : List Value) : Except ArgumentFault Value := do
  match ← single args with
  | .str t => .ok (.str (f t))
  | v => .error (.notText name v.kind)

def apply : Function → List Value → Except ArgumentFault Value
  | len, args => single args >>= length
  | str, args => single args >>= toText
  | int, args => single args >>= toInt
  | float, args => single args >>= toFloat
  | abs, args => single args >>= magnitude
  | round, args => roundArgs args
  | min, args => extreme "min" .lt args
  | max, args => extreme "max" .gt args
  | upper, args => onText "upper" Text.upper args
  | lower, args => onText "lower" Text.lower args
  | strip, args => onText "strip" Text.trim args

end Function
end CellScript.Script
