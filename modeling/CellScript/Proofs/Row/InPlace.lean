import Mathlib
import CellScript.Row.Sheet

/-! Rows changed step by step. A row or a layout that is changed in place is there as it has become, also
when a later step fails. What is reached is what a write or a registration gives, and when those fail it
is what was there before. -/
namespace CellScript

def Layout.registerInPlace (l : Layout) (names : List Text) : Layout × Except Row.Error Unit :=
  match l.header with
  | some _ => (l,.error .headerRegistered)
  | none => ({ l with header := some names },.ok ())

namespace Row

lemma length_pad (cells : List Text) (n : ℕ) :
    (pad cells n).length = max cells.length n := by
  rw [pad,List.length_append,List.length_replicate]
  omega

def addCell (r : Row) : Row := { r with cells := r.cells ++ [[]] }

/-- Add empty cells one by one until there are enough of them. -/
def growTo (n : ℕ) (r : Row) : Row :=
  if r.cells.length < n then growTo n r.addCell else r
termination_by n-r.cells.length
decreasing_by simp [addCell]; omega

/-- Look for the position that a key means, and add the cells that are missing on the way. -/
def makeRoom (l : Layout) (r : Row) : Key → Row × Except Error ℕ
  | .name name =>
    match l.resolve r.base name with
    | .error e => (r,.error e)
    | .ok p => (r.growTo (p+1),.ok p)
  | .index i =>
    let p := fromEnd r.cells.length i
    if p < 0 then (r,.error (.outOfRange i r.cells.length))
    else
      let r := if p = r.cells.length then r.addCell else r
      if p < r.cells.length then (r,.ok p.toNat) else (r,.error (.notNext i r.cells.length))

/-- Write a cell step by step. The row is the one reached, also when a step fails. -/
def writeInPlace (l : Layout) (r : Row) (key : Key) (v : Value) : Row × Except Error Unit :=
  match v.text? with
  | none => (r,.error (.unstorable key))
  | some t =>
    match r.makeRoom l key with
    | (r,.error e) => (r,.error e)
    | (r,.ok p) => ({ r with cells := r.cells.set p t },.ok ())

lemma pad_of_le {cells : List Text} {n : ℕ} (h : n ≤ cells.length) : pad cells n = cells := by
  rw [pad,Nat.sub_eq_zero_of_le h,List.replicate_zero,List.append_nil]

lemma pad_addCell {r : Row} {n : ℕ} (h : r.cells.length < n) :
    pad r.addCell.cells n = pad r.cells n := by
  have hn : n-r.cells.length = n-(r.cells.length+1)+1 := by omega
  simp only [pad,addCell,List.length_append,List.length_singleton,List.append_assoc]
  rw [hn,List.replicate_succ,List.singleton_append]

lemma growTo_eq (n : ℕ) (r : Row) : r.growTo n = { r with cells := pad r.cells n } := by
  induction r using growTo.induct n with
  | case1 r h ih =>
    rw [growTo,if_pos h,ih,pad_addCell h]
    rfl
  | case2 r h => rw [growTo,if_neg h,pad_of_le (by omega)]

/-- Where a position is found, there is room for it by then. Otherwise no cell has been added. -/
lemma makeRoom_eq (l : Layout) (r : Row) (key : Key) :
    r.makeRoom l key = match r.writePosition l key with
      | .ok p => ({ r with cells := pad r.cells (p+1) },.ok p)
      | .error e => (r,.error e) := by
  cases key with
  | name name =>
    simp only [makeRoom,writePosition]
    cases l.resolve r.base name with
    | error e => rfl
    | ok p => simp only [growTo_eq]
  | index i =>
    simp only [makeRoom,writePosition]
    generalize fromEnd r.cells.length i = p
    by_cases hneg : p < 0
    · rw [if_pos hneg,if_pos hneg]
    · rw [if_neg hneg,if_neg hneg]
      rcases lt_trichotomy p r.cells.length with hlt | heq | hgt
      · rw [if_neg hlt.ne,if_pos hlt,if_pos hlt.le]
        simp only [pad_of_le (show p.toNat+1 ≤ r.cells.length by omega)]
      · -- the one position where a cell is added, and then there is no failure any more
        have hroom : pad r.cells (p.toNat+1) = r.addCell.cells := by
          rw [← pad_addCell (by omega),pad_of_le (by simp [addCell]; omega)]
        rw [if_pos heq,if_pos (by simp [addCell]; omega),if_pos heq.le]
        simp only [hroom]
        rfl
      · rw [if_neg hgt.ne',if_neg hgt.not_gt,if_neg (by omega)]

/-- Writing step by step reaches what a write gives, and nothing when it gives no row. -/
theorem writeInPlace_eq (l : Layout) (r : Row) (key : Key) (v : Value) :
    r.writeInPlace l key v = match r.set l key v with
      | .ok r' => (r',.ok ())
      | .error e => (r,.error e) := by
  rw [writeInPlace,set,makeRoom_eq]
  cases v.text? with
  | none => rfl
  | some t => cases r.writePosition l key <;> rfl

/-- Record the cells of a row as the header, then add a cell for each extra column. The layout and the
row are the ones reached, also when a step fails. -/
def registerInPlace (l : Layout) (r : Row) : Layout × Row × Except Error Unit :=
  match l.registerInPlace (r.cells.take r.base) with
  | (l,.error e) => (l,r,.error e)
  | (l,.ok ()) => (l,l.extra.foldl (fun r _ => r.addCell) r,.ok ())

lemma foldl_addCell (xs : List Text) (r : Row) :
    xs.foldl (fun r _ => r.addCell) r = { r with cells := r.cells ++ xs.map fun _ => [] } := by
  induction xs generalizing r with
  | nil => simp
  | cons x xs ih =>
    rw [List.foldl_cons,ih,addCell,List.map_cons,List.append_assoc,List.singleton_append]

/-- A header is taken from a row once. The row gets an empty cell for each extra column. -/
lemma register_eq (l : Layout) (r : Row) : r.register l =
    match l.header with
    | some _ => .error .headerRegistered
    | none => .ok ({ l with header := some (r.cells.take r.base) },
        { r with cells := r.cells ++ l.extra.map fun _ => [] }) := by
  unfold register Layout.register
  cases l.header <;> rfl

theorem registerInPlace_eq (l : Layout) (r : Row) :
    r.registerInPlace l = match r.register l with
      | .ok (l',r') => (l',r',.ok ())
      | .error e => (l,r,.error e) := by
  rw [registerInPlace,Layout.registerInPlace,register_eq]
  cases l.header with
  | none => simp only [foldl_addCell]
  | some names => rfl

end Row

namespace Sheet

/-- A step on a sheet that changes its rows and columns in place. The sheet is the one reached, also when
the step fails. -/
def stepInPlace (s : Sheet) : Step → Sheet × Except Row.Error Unit
  | .parse line => (s.push (Row.parse s.layout line),.ok ())
  | .add cells => (s.push (Row.ofCells cells),.ok ())
  | .register i =>
    match s.rows[i]? with
    | none => (s,.ok ())
    | some r =>
      let (layout,r,result) := r.registerInPlace s.layout
      ({ s.put i r with layout },result)
  | .set i key v =>
    match s.rows[i]? with
    | none => (s,.ok ())
    | some r =>
      let (r,result) := r.writeInPlace s.layout key v
      (s.put i r,result)

lemma put_self {s : Sheet} {i : ℕ} {r : Row} (h : s.rows[i]? = some r) : s.put i r = s := by
  obtain ⟨hi,rfl⟩ := List.getElem?_eq_some_iff.mp h
  rw [put,List.set_getElem_self]

/-- A step in place reaches the sheet that the step gives, and the sheet as it was when it gives none. -/
theorem stepInPlace_eq (s : Sheet) (x : Step) :
    s.stepInPlace x = (s.apply x,(s.step x).map fun _ => ()) := by
  cases x with
  | parse line => rfl
  | add cells => rfl
  | register i =>
    rw [stepInPlace,apply,step]
    cases hr : s.rows[i]? with
    | none => rfl
    | some r =>
      dsimp only
      rw [Row.registerInPlace_eq]
      cases r.register s.layout with
      | error e => simp [put_self hr,Except.map,Except.toOption,bind,Except.bind]
      | ok lr => rfl
  | set i key v =>
    rw [stepInPlace,apply,step]
    cases hr : s.rows[i]? with
    | none => rfl
    | some r =>
      dsimp only
      rw [Row.writeInPlace_eq]
      cases r.set s.layout key v with
      | error e => simp [put_self hr,Except.map,Except.toOption,bind,Except.bind]
      | ok r' => rfl

end Sheet
end CellScript
