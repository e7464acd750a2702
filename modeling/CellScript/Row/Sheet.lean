import CellScript.Row.View

/-! Several rows over one layout. -/
namespace CellScript

structure Sheet where
  layout : Layout
  rows : List Row := []
  deriving Inhabited

namespace Sheet

inductive Step where
  | parse (line : Text)
  | add (cells : List Text)
  | register (row : Nat)
  | set (row : Nat) (key : Key) (value : Value)

def push (s : Sheet) (r : Row) : Sheet := { s with rows := s.rows ++ [r] }

def put (s : Sheet) (row : Nat) (r : Row) : Sheet := { s with rows := s.rows.set row r }

/-- The sheet after a step. A step that fails changes nothing. -/
def step (s : Sheet) : Step → Except Row.Error Sheet
  | .parse line => .ok (s.push (Row.parse s.layout line))
  | .add cells => .ok (s.push (Row.ofCells cells))
  | .register row =>
    match s.rows[row]? with
    | none => .ok s
    | some r => do
      let (layout, r) ← r.register s.layout
      return { s.put row r with layout }
  | .set row key value =>
    match s.rows[row]? with
    | none => .ok s
    | some r => do return s.put row (← r.set s.layout key value)

/-- The sheet after a step, whether it fails or not. -/
def apply (s : Sheet) (step : Step) : Sheet := (s.step step).toOption.getD s

end Sheet
end CellScript
