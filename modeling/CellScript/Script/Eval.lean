import CellScript.Row.View
import CellScript.Script.Expr
import CellScript.Script.Function

/-! Evaluation of scripts on a row. Evaluating an expression changes nothing; a statement binds a
variable or stores a cell. -/
namespace CellScript.Script

/-- What a script sees: the columns, the row, and its variables, the latest binding first. -/
structure Scope where
  layout : Layout
  row : Row
  vars : List (Text × Value) := []

def Scope.lookup? (s : Scope) (name : Text) : Option Value :=
  (s.vars.find? fun b => b.1 == name).map (·.2)

def ofOperands {α : Type} : Except Value.Fault α → Except Error α
  | .ok a => .ok a
  | .error fault => .error (.operands fault)

def ofRow {α : Type} : Except Row.Error α → Except Error α
  | .ok a => .ok a
  | .error error => .error (.row error)

def viewOf : Option Text → Except Error View
  | none => .ok .text
  | some name =>
    if name == Text.ofString "str" then .ok .text
    else if name == Text.ofString "int" then .ok .int
    else if name == Text.ofString "float" then .ok .float
    else .error (.unknownView name)

def keyOf : Value → Except Error Key
  | .int n => .ok (.index n.toInt)
  | .str t => .ok (.name t)
  | v => .error (.badIndex v.kind)

def boundOf : Value → Except Error Int
  | .int n => .ok n.toInt
  | v => .error (.badBound v.kind)

def applyFunction (name : Text) (f : Function) (args : List Value) : Except Error Value :=
  match f.apply args with
  | .ok v => .ok v
  | .error fault => .error (.arguments name fault)

mutual

/-- The value of an expression. The operands of "or" and "and" are evaluated only as far as they
decide the outcome, which is the last value reached. -/
def eval (s : Scope) : Expr → Except Error Value
  | .or left right => do
    let v ← eval s left
    if v.truthy then return v else eval s right
  | .and left right => do
    let v ← eval s left
    if v.truthy then eval s right else return v
  | .not operand => do
    let v ← eval s operand
    return .bool !v.truthy
  | .compare op left right => do
    let a ← eval s left
    let b ← eval s right
    return .bool (← ofOperands (Value.compare op a b))
  | .arith op left right => do
    let a ← eval s left
    let b ← eval s right
    ofOperands (Value.arith op a b)
  | .signed op operand => do
    let v ← eval s operand
    ofOperands (Value.signed op v)
  | .float x => return .float x
  | .int n => return .int n
  | .string t => return .str t
  | .bool b => return .bool b
  | .nil => return .nil
  | .cell view key => do
    let view ← viewOf view
    let key ← evalKey s key
    ofRow (view.get s.layout s.row key)
  | .slice view lo hi => do
    let view ← viewOf view
    let lo ← evalBound s lo
    let hi ← evalBound s hi
    return .list none (← ofRow (view.slice s.row lo hi))
  | .call name args =>
    match Function.ofName? name with
    | none => .error (.unknownFunction name)
    | some f => do applyFunction name f (← evalAll s args)
  | .var name pos =>
    match s.lookup? name with
    | some v => return v
    | none => .error (.unboundName name pos)
  | .paren inner => eval s inner

def evalKey (s : Scope) : Option Expr → Except Error Key
  | none => .error .missingIndex
  | some e => do keyOf (← eval s e)

def evalBound (s : Scope) : Option Expr → Except Error (Option Int)
  | none => return none
  | some e => do return some (← boundOf (← eval s e))

def evalAll (s : Scope) : List Expr → Except Error (List Value)
  | [] => return []
  | e :: es => do
    let v ← eval s e
    return v :: (← evalAll s es)

end

attribute [grind =] eval evalKey evalBound evalAll

/-- Run one statement. The value of an assignment is evaluated before its target. -/
def exec (s : Scope) : Statement → Except Error Scope
  | .eval e => do
    let _ ← eval s e
    return s
  | .bind pos name value => do
    let v ← eval s value
    return { s with vars := (name, v.bindAt pos) :: s.vars }
  | .store view key value => do
    let v ← eval s value
    let _ ← viewOf view
    let key ← evalKey s key
    return { s with row := ← ofRow (s.row.set s.layout key v) }

/-- Run statements in order up to the first failure. The scope is the one reached. -/
def execAll (s : Scope) : List Statement → Scope × Except Error Unit
  | [] => (s, .ok ())
  | st :: rest =>
    match exec s st with
    | .ok s => execAll s rest
    | .error error => (s, .error error)

/-- Run a program on a row. The row is the one reached, also when a statement fails. -/
def Program.run (p : Program) (layout : Layout) (row : Row) : Row × Except Error Unit :=
  let (s, result) := execAll { layout, row } p.statements
  (s.row, result)

def Formula.value (f : Formula) (layout : Layout) (row : Row) : Except Error Value :=
  eval { layout, row } f.expr

def Formula.holds (f : Formula) (layout : Layout) (row : Row) : Except Error Bool := do
  return (← f.value layout row).truthy

end CellScript.Script
