import CellScript.Text.Basic

/-! Which names of a TOML document are taken, so that no name is given twice. -/
namespace CellScript.Settings.Toml

inductive Taken where
  | value
  /-- A table. A closed one takes no more names by dotted keys, and a loose one is closed with the
  section that its dotted keys stand in. -/
  | table (closed loose : Bool) (inner : List (Text × Taken))
  /-- The last of several tables under one name. -/
  | tables (inner : List (Text × Taken))

/-- The names of a table. -/
abbrev Outline := List (Text × Taken)

namespace Outline

def get? (o : Outline) (name : Text) : Option Taken :=
  (o.find? fun e => e.1 == name).map (·.2)

def put (o : Outline) (name : Text) (what : Taken) : Outline :=
  (o.filter fun e => e.1 != name) ++ [(name, what)]

/-- Give a dotted key a value. Its tables may have been opened by the same section only. -/
def addKey? : List Text → Outline → Option Outline
  | [], _ => none
  | [name], o => if (o.get? name).isSome then none else some (o.put name .value)
  | name :: rest, o =>
    match o.get? name with
    | none => do return o.put name (.table false true (← addKey? rest []))
    | some (.table false loose inner) => do
      return o.put name (.table false loose (← addKey? rest inner))
    | _ => none

/-- Change the names of the table at a path. -/
def within? (change : Outline → Option Outline) : List Text → Outline → Option Outline
  | [], o => change o
  | name :: rest, o =>
    match o.get? name with
    | none => do return o.put name (.table false false (← within? change rest []))
    | some .value => none
    | some (.table closed loose inner) => do
      return o.put name (.table closed loose (← within? change rest inner))
    | some (.tables inner) => do return o.put name (.tables (← within? change rest inner))

/-- Start a section for a table. There is one at most. -/
def addTable? (name : Text) (o : Outline) : Option Outline :=
  match o.get? name with
  | none => some (o.put name (.table true false []))
  | some (.table false loose inner) => some (o.put name (.table true loose inner))
  | _ => none

/-- Start a section for one more of several tables. -/
def addTables? (name : Text) (o : Outline) : Option Outline :=
  match o.get? name with
  | none | some (.tables _) => some (o.put name (.tables []))
  | _ => none

end Outline

mutual

/-- End the section that a table belongs to. -/
def Taken.close : Taken → Taken
  | .value => .value
  | .table closed loose inner => .table (closed || loose) false (closeAll inner)
  | .tables inner => .tables (closeAll inner)

/-- End a section for all names of its table. -/
def closeAll : List (Text × Taken) → List (Text × Taken)
  | [] => []
  | (name, what) :: rest => (name, what.close) :: closeAll rest

end

end CellScript.Settings.Toml
