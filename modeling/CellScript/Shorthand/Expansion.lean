import CellScript.Shorthand.Field

/-! The expansion of shorthand into script code. Each accessor becomes a read of the row, or the
target of an assignment when an assignment operator follows it first in its statement. -/
namespace CellScript.Shorthand

/-- What accessors may do: everything in a statement, only be read in a filter. -/
inductive Mode where
  | statement
  | filter
  deriving DecidableEq

def Mode.name : Mode → Text
  | statement => "full"
  | filter => "field-only"

structure Draft where
  /-- The last accessor, as long as it may still become a target. -/
  pending : Option Field := none
  /-- Whether the current statement has had no assignment operator yet. -/
  atTarget : Bool := true
  /-- Whether a parenthesis of a compound assignment is open. -/
  inGroup : Bool := false
  fragments : List Text := []
  newHeaders : List Text := []

structure Expansion where
  code : Text
  newHeaders : List Text
  deriving DecidableEq

/-- Bytes that would run together with a neighbour of their sort. -/
def sticks (b : UInt8) : Bool := Text.isWord b || Text.isQuote b

/-- Put a fragment after some code, with a space where two words would run together. -/
def glue (code fragment : Text) : Text :=
  match code.getLast?, fragment.head? with
  | some a, some b =>
    if sticks a && sticks b then code ++ Text.ascii ' ' :: fragment else code ++ fragment
  | _, _ => code ++ fragment

def glueAll (fragments : List Text) : Text := fragments.foldl glue []

namespace Draft

def write (d : Draft) (fragment : Text) : Draft := { d with fragments := d.fragments ++ [fragment] }

/-- Write a pending accessor as a read. -/
def flush (d : Draft) : Draft :=
  match d.pending with
  | some f => { d with pending := none }.write f.read
  | none => d

def pass (d : Draft) (text : Text) : Draft := d.flush.write text

/-- End a statement: a pending accessor was a read, and an open group is closed. -/
def endStatement (d : Draft) : Draft :=
  let d := d.flush
  if d.inGroup then { d.write ")" with inGroup := false } else d

/-- The operator of a compound assignment without its equals sign. -/
def bareOperator (op : Text) : Text := op.dropLast

/-- The first assignment operator of a statement. The accessor right before it is the target; a
compound operator reads the target first and opens a group for the new value. -/
def assign (d : Draft) (op : Text) : Draft :=
  let d := { d with atTarget := false }
  match d.pending with
  | none => d.write op
  | some f =>
    let d := { d with pending := none }.write (f.target ++ " = ")
    if op.length == 1 then d
    else { d.write (f.read ++ " " ++ bareOperator op ++ " (") with inGroup := true }

/-- The label of a new column: its own, or its number after an underscore. -/
def labelFor (d : Draft) (label : Text) : Text :=
  if label.isEmpty then "_" ++ Text.ofNat (d.newHeaders.length + 1) else label

def visitStatement (quoting : Bool) (d : Draft) (t : Token) : Except Error Draft :=
  match t.kind with
  | .accessor | .ambiguous => do
    let f ← t.field quoting
    return { d.flush with pending := some f }
  | .append => do
    let (cast, label) ← t.newColumn
    let label := d.labelFor label
    return { d.flush with
      pending := some ⟨cast, "\"" ++ label ++ "\""⟩
      newHeaders := d.newHeaders ++ [label] }
  | .assignment => .ok (if d.atTarget then d.assign t.lexeme else d.pass t.lexeme)
  | .separator => .ok { d.endStatement.write t.lexeme with atTarget := true }
  | .passthrough => .ok (d.pass t.lexeme)

def visitFilter (quoting : Bool) (d : Draft) (t : Token) : Except Error Draft :=
  match t.kind with
  | .accessor | .ambiguous => do
    let f ← t.field quoting
    return d.write f.read
  | .append => .error (t.refuse .appendInFilter)
  | _ => .ok (d.pass t.lexeme)

def visit : Mode → Bool → Draft → Token → Except Error Draft
  | .statement => visitStatement
  | .filter => visitFilter

def finish (d : Draft) : Expansion :=
  let d := d.endStatement
  ⟨glueAll d.fragments, d.newHeaders⟩

end Draft

/-- The script code of a source. With quoting on, bare words in accessors are column names. -/
def expand (mode : Mode) (quoting : Bool) (src : Text) : Except Error Expansion := do
  let d ← (scan src).foldlM (Draft.visit mode quoting) {}
  return d.finish

end CellScript.Shorthand
