import CellScript.Value.Basic

/-! Arithmetic and comparison of values. -/
namespace CellScript

inductive Arith where
  | add
  | sub
  | mul
  | div
  | floorDiv
  | mod
  deriving DecidableEq

inductive Compare where
  | eq
  | ne
  | lt
  | le
  | gt
  | ge
  deriving DecidableEq

inductive Sign where
  | plus
  | minus
  deriving DecidableEq

def Arith.symbol : Arith → Text
  | add => "+"
  | sub => "-"
  | mul => "*"
  | div => "/"
  | floorDiv => "//"
  | mod => "%"

def Compare.symbol : Compare → Text
  | eq => "=="
  | ne => "!="
  | lt => "<"
  | le => "<="
  | gt => ">"
  | ge => ">="

def Sign.symbol : Sign → Text
  | plus => "+"
  | minus => "-"

namespace Value

inductive Fault where
  | sign (op : Sign) (operand : Kind)
  | arith (op : Arith) (left right : Kind)
  | compare (op : Compare) (left right : Kind)
  | zeroDivisor
  deriving DecidableEq

def signed (op : Sign) : Value → Except Fault Value
  | int n => .ok (int (match op with | .minus => -n | .plus => n))
  | float x => .ok (float (match op with | .minus => -x | .plus => x))
  | v => .error (.sign op v.kind)

/-- The quotient of two words, rounded down. -/
def floorDiv (a b : Int64) : Int64 :=
  let q := a / b
  if a % b != 0 && (decide (a < 0) != decide (b < 0)) then q - 1 else q

/-- The remainder of two words, with the sign of the divisor. -/
def floorMod (a b : Int64) : Int64 :=
  let m := a % b
  if m != 0 && (decide (m < 0) != decide (b < 0)) then m + b else m

/-- Arithmetic on two words. Division by "/" leaves the whole numbers. -/
def arithInt (op : Arith) (a b : Int64) : Except Fault Value :=
  match op with
  | .add => .ok (int (a + b))
  | .sub => .ok (int (a - b))
  | .mul => .ok (int (a * b))
  | .div =>
    if b == 0 then .error .zeroDivisor
    else .ok (float (Float.ofInt a.toInt / Float.ofInt b.toInt))
  | .floorDiv => if b == 0 then .error .zeroDivisor else .ok (int (floorDiv a b))
  | .mod => if b == 0 then .error .zeroDivisor else .ok (int (floorMod a b))

/-- The remainder of two floating point numbers, with the sign of the divisor. -/
def floatMod (a b : Float) : Float :=
  let m := Number.remainder a b
  if m != 0 && (decide (m < 0) != decide (b < 0)) then m + b else m

def arithFloat (op : Arith) (a b : Float) : Except Fault Value :=
  match op with
  | .add => .ok (float (a + b))
  | .sub => .ok (float (a - b))
  | .mul => .ok (float (a * b))
  | .div => if b == 0 then .error .zeroDivisor else .ok (float (a / b))
  | .floorDiv => if b == 0 then .error .zeroDivisor else .ok (float (Number.floor (a / b)))
  | .mod => if b == 0 then .error .zeroDivisor else .ok (float (floatMod a b))

/-- Arithmetic on numbers of either kind: two words stay words, a mixed pair is taken as floating
point. -/
def arithNumber (op : Arith) (left right : Value) : Except Fault Value :=
  match left, right with
  | int a, int b => arithInt op a b
  | _, _ =>
    match left.toFloat?, right.toFloat? with
    | some a, some b => arithFloat op a b
    | _, _ => .error (.arith op left.kind right.kind)

/-- The result of an arithmetic operator. Addition also joins two texts or two lists. -/
def arith (op : Arith) (left right : Value) : Except Fault Value :=
  match op, left, right with
  | .add, str a, str b => .ok (str (a ++ b))
  | .add, list _ xs, list _ ys => .ok (list none (xs ++ ys))
  | _, _, _ => arithNumber op left right

def compareFloat (op : Compare) (a b : Float) : Bool :=
  match op with
  | .eq => a == b
  | .ne => a != b
  | .lt => a < b
  | .le => a ≤ b
  | .gt => a > b
  | .ge => a ≥ b

def compareText (op : Compare) (a b : Text) : Bool :=
  match op with
  | .eq => a == b
  | .ne => a != b
  | .lt => a < b
  | .le => !(decide (b < a))
  | .gt => b < a
  | .ge => !(decide (a < b))

/-- Values that have no order are still equal or not. -/
def compareOther (op : Compare) (left right : Value) : Except Fault Bool :=
  match op with
  | .eq => .ok (same left right)
  | .ne => .ok !(same left right)
  | _ => .error (.compare op left.kind right.kind)

/-- The outcome of a comparison. Numbers compare as floating point numbers, texts as bytes. -/
def compare (op : Compare) (left right : Value) : Except Fault Bool :=
  match left.toFloat?, right.toFloat? with
  | some a, some b => .ok (compareFloat op a b)
  | _, _ =>
    match left, right with
    | str a, str b => .ok (compareText op a b)
    | _, _ => compareOther op left right

end Value
end CellScript
