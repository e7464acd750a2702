import CellScript.Row.Layout
import CellScript.Value.Basic

/-! The cells of one line. -/
namespace CellScript

/-- The cells of a line. The first base of them are those it had when it was read. -/
structure Row where
  cells : List Text
  base : Nat
  deriving DecidableEq, Inhabited

namespace Row

def ofCells (cells : List Text) : Row := ⟨cells, cells.length⟩

/-- Cut a line into cells at the delimiter. -/
def parse (l : Layout) (line : Text) : Row := ofCells (Text.splitOn l.delimiter line)

def text (l : Layout) (r : Row) : Text := Text.join l.delimiter r.cells

/-- Take the row as the header line: its cells name the columns, and one empty cell is added for
each extra column. -/
def register (l : Layout) (r : Row) : Except Error (Layout × Row) := do
  let l ← l.register (r.cells.take r.base)
  return (l, { r with cells := r.cells ++ l.extra.map fun _ => [] })

/-- The place of a position that counts from the end when it is negative. -/
def fromEnd (n : Nat) (i : Int) : Int := if i < 0 then i + n else i

/-- The position of the cell that a key reads. -/
def readPosition (l : Layout) (r : Row) : Key → Except Error Nat
  | .name name => do
    let p ← l.resolve r.base name
    if p < r.cells.length then .ok p else .error (.missingCell name p r.cells.length)
  | .index i =>
    let p := fromEnd r.cells.length i
    if 0 ≤ p ∧ p < r.cells.length then .ok p.toNat else .error (.outOfRange i r.cells.length)

/-- The position of the cell that a key writes. A position may be the next one after the row; a
name may be any column. -/
def writePosition (l : Layout) (r : Row) : Key → Except Error Nat
  | .name name => l.resolve r.base name
  | .index i =>
    let p := fromEnd r.cells.length i
    if p < 0 then .error (.outOfRange i r.cells.length)
    else if p ≤ r.cells.length then .ok p.toNat
    else .error (.notNext i r.cells.length)

/-- The cells with empty ones after them up to a length. -/
def pad (cells : List Text) (length : Nat) : List Text :=
  cells ++ List.replicate (length - cells.length) []

def get (l : Layout) (r : Row) (key : Key) : Except Error Text := do
  let p ← r.readPosition l key
  return r.cells.getD p []

/-- Store the text of a value at a key. -/
def set (l : Layout) (r : Row) (key : Key) (v : Value) : Except Error Row := do
  match v.text? with
  | none => .error (.unstorable key)
  | some t =>
    let p ← r.writePosition l key
    return { r with cells := (pad r.cells (p + 1)).set p t }

/-- A slice bound as a position from 0 to n. -/
def clamp (n : Nat) (i : Int) : Nat := (max 0 (min (fromEnd n i) n)).toNat

/-- The ends of a slice of n cells. A missing bound is the start or the end, and a slice does not end in
front of its start. -/
def bounds (n : Nat) (lo hi : Option Int) : Nat × Nat :=
  let start := (lo.map (clamp n)).getD 0
  let stop := (hi.map (clamp n)).getD n
  (start, if stop < start then start else stop)

/-- The cells from one bound up to the other. -/
def slice (r : Row) (lo hi : Option Int) : List Text :=
  let (start, stop) := bounds r.cells.length lo hi
  (r.cells.take stop).drop start

end Row
end CellScript
