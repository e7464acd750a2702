import CellScript.Value.Operator

/-! The syntax of scripts. -/
namespace CellScript.Script

/-- An expression. Chains of operators lean to the left; parentheses are kept. -/
inductive Expr where
  | or (left right : Expr)
  | and (left right : Expr)
  | not (operand : Expr)
  | compare (op : Compare) (left right : Expr)
  | arith (op : Arith) (left right : Expr)
  | signed (op : Sign) (operand : Expr)
  | float (x : Float)
  | int (n : Int64)
  | string (t : Text)
  | bool (b : Bool)
  | nil
  /-- A cell of the row, through an optional view. The key may be missing. -/
  | cell (view : Option Text) (key : Option Expr)
  /-- Several cells of the row, through an optional view. -/
  | slice (view : Option Text) (lo hi : Option Expr)
  | call (function : Text) (args : List Expr)
  | var (name : Text) (pos : Text.Position)
  | paren (inner : Expr)
  deriving Inhabited

/-- A statement at a place in the source. -/
inductive Statement where
  | eval (e : Expr)
  | bind (pos : Text.Position) (name : Text) (value : Expr)
  | store (view : Option Text) (key : Option Expr) (value : Expr)
  deriving Inhabited

/-- A parsed statement: an expression, and what is assigned to it if anything. -/
structure Clause where
  pos : Text.Position
  target : Expr
  value : Option Expr

structure Program where
  source : Text
  statements : List Statement
  deriving Inhabited

structure Formula where
  source : Text
  expr : Expr
  deriving Inhabited

end CellScript.Script
