import CellScript.Number.Reading
import CellScript.Row.Basic

/-! Reading cells as values. -/
namespace CellScript

/-- How a cell is read: as its text, or as a number. -/
inductive View where
  | text
  | int
  | float
  deriving DecidableEq

namespace View

/-- The value of a cell. A number may have white space around it. -/
def read (v : View) (source : Row.Source) (cell : Text) : Except Row.Error Value :=
  match v with
  | text => .ok (.str cell)
  | int =>
    match Number.readInt cell.trim with
    | .ok n => .ok (.int n)
    | .error fault => .error (.unreadable source cell .int fault)
  | float =>
    match Number.readFloat cell.trim with
    | .ok x => .ok (.float x)
    | .error fault => .error (.unreadable source cell .float fault)

def get (v : View) (l : Layout) (r : Row) (key : Key) : Except Row.Error Value := do
  v.read (.cell key) (← r.get l key)

def slice (v : View) (r : Row) (lo hi : Option Int) : Except Row.Error (List Value) :=
  (r.slice lo hi).mapM (v.read .slice)

end View
end CellScript
