import Mathlib
import CellScript.Proofs.Script.Positional
import CellScript.Proofs.Stream.Printed

/-! Selected columns of the header and of the lines below it. Selectors that give columns by their
positions or by name pick the same columns of all rows that have as many cells. -/
namespace CellScript

namespace Row

/-- Texts that are the cells of a row at positions, in their order. -/
def CellsAt (r : Row) (ps : List ℕ) (xs : List Text) : Prop := xs.map some = ps.map (r.cells[·]?)

lemma CellsAt.append {r : Row} {ps qs : List ℕ} {xs ys : List Text} (h : r.CellsAt ps xs)
    (h' : r.CellsAt qs ys) : r.CellsAt (ps ++ qs) (xs ++ ys) := by
  rw [CellsAt] at h h' ⊢
  rw [List.map_append,List.map_append,h,h']

lemma cellsAt_range (r : Row) : r.CellsAt (List.range r.cells.length) r.cells := by
  apply List.ext_getElem
  · simp
  · intro i hi _
    rw [List.length_map] at hi
    simp [hi]

def span (r : Row) (lo hi : Option ℤ) : List ℕ :=
  let (start,stop) := bounds r.cells.length lo hi
  List.range' start (stop-start)

lemma cellsAt_span (r : Row) (lo hi : Option ℤ) : r.CellsAt (r.span lo hi) (r.slice lo hi) :=
  slice_eq r lo hi

/-- A cell is read at its position, or there is none. -/
lemma get_matched (l : Layout) (r : Row) (key : Key) :
    Matched Eq (fun p t => r.CellsAt [p] [t]) (r.readPosition l key) (r.get l key) := by
  cases hp : r.readPosition l key with
  | error e =>
    rw [get,hp]
    exact .error rfl
  | ok p =>
    have ht : r.get l key = .ok (r.cells.getD p []) := by
      rw [get,hp]
      rfl
    obtain ⟨q,hq,hcell⟩ := get_eq_ok ht
    obtain rfl : p = q := Except.ok.inj (hp.symm.trans hq)
    rw [ht]
    exact .ok (congrArg (fun x => [x]) hcell.symm)

/-- Under a header the position of a cell depends on the width of a row only. -/
lemma readPosition_congr {l : Layout} (hl : l.header.isSome) {r r' : Row}
    (hcells : r'.cells.length = r.cells.length) (key : Key) :
    r'.readPosition l key = r.readPosition l key := by
  cases key with
  | name name =>
    obtain ⟨names,hnames⟩ := Option.isSome_iff_exists.mp hl
    have hresolve : l.resolve r'.base name = l.resolve r.base name := by
      simp only [Layout.resolve,hnames]
    rw [readPosition,readPosition,hresolve,hcells]
  | index i => rw [readPosition,readPosition,hcells]

lemma span_congr {r r' : Row} (hcells : r'.cells.length = r.cells.length) (lo hi : Option ℤ) :
    r'.span lo hi = r.span lo hi := by
  rw [span,span,hcells]

end Row

namespace Script

/-- One column: a position, or a name in quotes or without them. -/
def Expr.isColumn : Expr → Bool
  | .string _ | .var _ _ => true
  | e => e.isInteger

/-- A cell of one column, or the cells between two positions, each as its text. -/
def Expr.isSelector : Expr → Bool
  | .cell none (some key) => key.isColumn
  | .slice none lo hi => lo.all Expr.isInteger && hi.all Expr.isInteger
  | _ => false

/-- The positions that a selector picks of a row. -/
def Expr.columns (l : Layout) (r : Row) : Expr → Except Error (List ℕ)
  | .cell _ key => do
    let key ← evalKey ⟨l,r,[]⟩ key
    return [← ofRow (r.readPosition l key)]
  | .slice _ lo hi => do
    let lo ← evalBound ⟨l,r,[]⟩ lo
    let hi ← evalBound ⟨l,r,[]⟩ hi
    return r.span lo hi
  | _ => return []

/-- The positions that selectors pick one after the other. -/
def columnsAll (l : Layout) (r : Row) : List Formula → Except Error (List ℕ)
  | [] => return []
  | f::fs => do
    let ps ← f.expr.columns l r
    return ps ++ (← columnsAll l r fs)

/-- What gives a column does not depend on the cells of a row. -/
lemma eval_isColumn {e : Expr} (h : e.isColumn = true) (l : Layout) (r r' : Row)
    (vars : List (Text × Value)) : eval ⟨l,r',vars⟩ e = eval ⟨l,r,vars⟩ e := by
  unfold Expr.isColumn at h
  split at h
  · rw [eval,eval]
  · rw [eval,eval]
    rfl
  · obtain ⟨n,hn⟩ := eval_isInteger h
    rw [hn,hn]

section

variable {l : Layout} (hl : l.header.isSome) {r r' : Row}
  (hcells : r'.cells.length = r.cells.length)

include hl hcells

/-- A selector picks the same columns of rows with as many cells. -/
lemma columns_congr {e : Expr} (h : e.isSelector = true) : e.columns l r' = e.columns l r := by
  unfold Expr.isSelector at h
  split at h
  · rename_i key
    have hkey : evalKey ⟨l,r',[]⟩ (some key) = evalKey ⟨l,r,[]⟩ (some key) := by
      rw [evalKey,evalKey,eval_isColumn h l r r']
    rw [Expr.columns,Expr.columns,hkey]
    simp only [Row.readPosition_congr hl hcells]
  · rw [Bool.and_eq_true] at h
    obtain ⟨i,hi⟩ := evalBound_isInteger h.1
    obtain ⟨j,hj⟩ := evalBound_isInteger h.2
    rw [Expr.columns,Expr.columns,hi,hi,hj,hj]
    simp only [Row.span_congr hcells]
  · simp at h

lemma columnsAll_congr {fs : List Formula} (h : ∀ f ∈ fs, f.expr.isSelector = true) :
    columnsAll l r' fs = columnsAll l r fs := by
  induction fs with
  | nil => rfl
  | cons f fs ih =>
    rw [columnsAll,columnsAll,columns_congr hl hcells (h f (by simp)),
      ih fun g hg => h g (by simp [hg])]

end

end Script

namespace Stream

lemma slice_texts (r : Row) (lo hi : Option ℤ) :
    View.text.slice r lo hi = .ok ((r.slice lo hi).map .str) := by
  rw [View.slice,mapM_eq_ok_iff,List.forall₂_map_right_iff,List.forall₂_same]
  exact fun _ _ => rfl

lemma fieldsOf_texts (pos : Option Text.Position) (xs : List Text) :
    fieldsOf (.list pos (xs.map .str)) = .ok xs := by
  rw [fieldsOf,spread,mapM_eq_ok_iff,List.forall₂_map_left_iff,List.forall₂_same]
  exact fun _ _ => rfl

/-- A selector gives the cells of its columns, or it fails where it picks none. -/
lemma fieldsOf_matched {f : Script.Formula} (h : f.expr.isSelector = true) (l : Layout) (r : Row) :
    Matched Eq r.CellsAt (f.expr.columns l r) (f.value l r >>= fieldsOf) := by
  unfold Script.Expr.isSelector at h
  split at h
  · rename_i key hexpr
    rw [Script.Formula.value,hexpr,Script.Expr.columns,Script.eval]
    cases Script.evalKey ⟨l,r,[]⟩ (some key) with
    | error e => exact .error rfl
    | ok k =>
      change Matched Eq r.CellsAt (Script.ofRow (r.readPosition l k) >>= fun p => pure [p])
        (Script.ofRow (r.get l k >>= View.text.read (.cell k)) >>= fieldsOf)
      have hget := r.get_matched l k
      generalize r.readPosition l k = x at hget ⊢
      generalize r.get l k = y at hget ⊢
      cases hget with
      | error he => exact .error (congrArg Script.Error.row he)
      | ok hat => exact .ok hat
  · rename_i lo hi hexpr
    rw [Bool.and_eq_true] at h
    obtain ⟨i,hi⟩ := Script.evalBound_isInteger h.1
    obtain ⟨j,hj⟩ := Script.evalBound_isInteger h.2
    rw [Script.Formula.value,hexpr,Script.Expr.columns,Script.eval,hi,hj]
    change Matched Eq r.CellsAt (.ok (r.span i j))
      ((Script.ofRow (View.text.slice r i j) >>= fun vs => pure (.list none vs)) >>= fieldsOf)
    rw [slice_texts]
    change Matched Eq r.CellsAt _ (fieldsOf (.list none _))
    rw [fieldsOf_texts]
    exact .ok (r.cellsAt_span i j)
  · simp at h

lemma project_cons (f : Script.Formula) (fs : List Script.Formula) (l : Layout) (row : Row) :
    project (f::fs) l row = do
      let xs ← f.value l row >>= fieldsOf
      return xs ++ (← project fs l row) := by
  rw [project,project,List.mapM_cons]
  cases f.value l row >>= fieldsOf with
  | error e => rfl
  | ok xs => cases fs.mapM fun f => f.value l row >>= fieldsOf <;> rfl

lemma project_matched {fs : List Script.Formula} (h : ∀ f ∈ fs, f.expr.isSelector = true)
    (l : Layout) (r : Row) : Matched Eq r.CellsAt (Script.columnsAll l r fs) (project fs l r) := by
  induction fs with
  | nil => exact .ok rfl
  | cons f fs ih =>
    rw [Script.columnsAll,project_cons]
    refine (fieldsOf_matched (h f (by simp)) l r).bind fun ps xs hfirst => ?_
    refine (ih fun g hg => h g (by simp [hg])).bind fun qs ys hrest => ?_
    exact .ok (hfirst.append hrest)

/-- The positions that a row is printed from: the selected ones, or all where none are selected. -/
def printedColumns (p : Pipeline) (l : Layout) (row : Row) : Except Script.Error (List ℕ) :=
  if p.projection.isEmpty then .ok (List.range row.cells.length)
  else Script.columnsAll l row p.projection

/-- The fields that a row is printed as: the selected ones, or all cells where none are selected. -/
def fields (p : Pipeline) (l : Layout) (row : Row) : Except Script.Error (List Text) :=
  if p.projection.isEmpty then .ok row.cells else project p.projection l row

lemma output_eq_fields (p : Pipeline) (l : Layout) (row : Row) :
    output p l row = (fields p l row).map (Text.join l.delimiter) := by
  rw [output,fields]
  split
  · rfl
  · cases project p.projection l row <;> rfl

lemma fields_matched {p : Pipeline} (h : ∀ f ∈ p.projection, f.expr.isSelector = true)
    (l : Layout) (r : Row) : Matched Eq r.CellsAt (printedColumns p l r) (fields p l r) := by
  rw [printedColumns,fields]
  split
  · exact .ok r.cellsAt_range
  · exact project_matched h l r

lemma printedColumns_congr {p : Pipeline} (h : ∀ f ∈ p.projection, f.expr.isSelector = true)
    {l : Layout} (hl : l.header.isSome) {r r' : Row}
    (hcells : r'.cells.length = r.cells.length) :
    printedColumns p l r' = printedColumns p l r := by
  rw [printedColumns,printedColumns,hcells,Script.columnsAll_congr hl hcells h]

/-- Rows with as many cells are printed from their cells at the same positions, or the selection fails
on both. -/
lemma fields_aligned {p : Pipeline} (h : ∀ f ∈ p.projection, f.expr.isSelector = true)
    {l : Layout} (hl : l.header.isSome) {r r' : Row}
    (hcells : r'.cells.length = r.cells.length) :
    match printedColumns p l r with
    | .error e => fields p l r = .error e ∧ fields p l r' = .error e
    | .ok ps => ∃ xs ys, fields p l r = .ok xs ∧ fields p l r' = .ok ys ∧
        r.CellsAt ps xs ∧ r'.CellsAt ps ys := by
  have hfirst := fields_matched h l r
  have hsecond := fields_matched h l r'
  rw [printedColumns_congr h hl hcells] at hsecond
  generalize printedColumns p l r = x at hfirst hsecond ⊢
  generalize fields p l r = y at hfirst ⊢
  generalize fields p l r' = z at hsecond ⊢
  cases hfirst with
  | error he =>
    cases hsecond with
    | error he' => exact ⟨he ▸ rfl,he' ▸ rfl⟩
  | ok hat =>
    cases hsecond with
    | ok hat' => exact ⟨_,_,rfl,rfl,hat,hat'⟩

/-- The selected columns of the header are those of the lines below it. Where all selectors are
positions, slices between positions or names, the header and every data line that leaves a row with as
many cells as the header row are printed from the same columns in the same order, or the selection
fails on both. -/
theorem selected_columns_align {o : Options} {plan : Plan} {p : Pipeline}
    (hplan : Plan.ofOptions o = .ok plan) (hp : Pipeline.compile plan = .ok p)
    (hheader : o.hasHeader = true) (hselect : ∀ f ∈ p.projection, f.expr.isSelector = true)
    (header : Text) {start : Plan → Stream} (hstart : start = fresh ∨ start = next) :
    ∃ l head, registerHeader plan (start plan).layout (rowOf (start plan).layout header) =
        .ok (l,head) ∧
      (process p (start plan) header).2 =
        (if o.printHeader && !(start plan).quiet then
          match fields p l head with
          | .ok xs => .ok (.printed (Text.join l.delimiter xs))
          | .error e => .error ⟨1,.select,e⟩
        else .ok .hidden) ∧
      ∀ before line row, Leaves p l line row → row.cells.length = head.cells.length →
        verdict (process p (advance p (start plan) (header::before)) line).2 =
          (match fields p l row with
          | .ok ys => .ok (.printed (Text.join l.delimiter ys))
          | .error e => .error (.select,e)) ∧
        match printedColumns p l head with
        | .error e => fields p l head = .error e ∧ fields p l row = .error e
        | .ok ps => ∃ xs ys, fields p l head = .ok xs ∧ fields p l row = .ok ys ∧
            head.CellsAt ps xs ∧ row.CellsAt ps ys := by
  have hoptions := Plan.options_ofOptions hplan
  obtain rfl := (Pipeline.compile_eq_ok_iff.mp hp).1
  have hmode : p.plan.options.hasHeader = true := by rwa [hoptions]
  have hfresh := layout_start hstart p.plan
  refine ⟨headed p.plan header,headerRow p.plan header,?_,?_,?_⟩
  · rw [hfresh.1,registerHeader_fresh]
  · rw [process_header hmode hfresh.2 hfresh.1,output_eq_fields,hoptions]
    cases fields p (headed p.plan header) (headerRow p.plan header) <;> rfl
  · intro before line row hrow hcells
    refine ⟨?_,?_⟩
    · have hverdict := lineVerdict_of_leaves hrow
      rw [output_eq_fields] at hverdict
      rw [verdict_after_header hmode hstart]
      refine hverdict.trans ?_
      cases fields p (headed p.plan header) row <;> rfl
    · exact fields_aligned hselect rfl hcells

/-- A new column in front of the others, and one of them again at the end. -/
def rotated : Pipeline where
  plan := ⟨{ statement := Text.ofString "s[+x] = 7", select := Text.ofString "-1,0:-1,a" },none,
    some (Text.ofString "row[\"x\"] = 7"),none,
    [Text.ofString "row[-1]",Text.ofString "row[0:-1]",Text.ofString "row[\"a\"]"],
    [Text.ofString "x"]⟩
  filter := none
  body := some ⟨Text.ofString "row[\"x\"] = 7",
    [.store none (some (.string (Text.ofString "x"))) (.int 7)]⟩
  afterFilter := none
  projection :=
    [⟨Text.ofString "row[-1]",.cell none (some (.signed .minus (.int 1)))⟩,
      ⟨Text.ofString "row[0:-1]",.slice none (some (.int 0)) (some (.signed .minus (.int 1)))⟩,
      ⟨Text.ofString "row[\"a\"]",.cell none (some (.string (Text.ofString "a")))⟩]

set_option maxRecDepth 4000 in
/-- A line below the header, after a shorter one. -/
theorem selected_columns_align_rotated :
    let lines := [Text.ofString "a,b",Text.ofString "1"]
    let head : Row := ⟨[Text.ofString "a",Text.ofString "b",Text.ofString "x"],2⟩
    let row : Row := ⟨[Text.ofString "1",Text.ofString "2",Text.ofString "7"],2⟩
    Plan.ofOptions rotated.plan.options = .ok rotated.plan ∧
    Pipeline.compile rotated.plan = .ok rotated ∧
    (process rotated (fresh rotated.plan) (Text.ofString "a,b")).2 =
      .ok (.printed (Text.ofString "x,a,b,a")) ∧
    verdict (process rotated (advance rotated (fresh rotated.plan) lines)
      (Text.ofString "1,2")).2 = .ok (.printed (Text.ofString "7,1,2,1")) ∧
    head.CellsAt [2,0,1,0] (Text.splitOn (Text.ofString ",") (Text.ofString "x,a,b,a")) ∧
    row.CellsAt [2,0,1,0] (Text.splitOn (Text.ofString ",") (Text.ofString "7,1,2,1")) := by
  intro lines head row
  have hplan : Plan.ofOptions rotated.plan.options = .ok rotated.plan := by decide +kernel
  have hp : Pipeline.compile rotated.plan = .ok rotated := rfl
  obtain ⟨l,head',hregister,hheader,hlines⟩ := selected_columns_align hplan hp rfl
    (by decide +kernel) (Text.ofString "a,b") (Or.inl rfl)
  obtain ⟨rfl,rfl⟩ : headed rotated.plan (Text.ofString "a,b") = l ∧ head = head' := by
    have hfresh := (registerHeader_fresh rotated.plan (Text.ofString "a,b")).symm.trans hregister
    have hhead : headerRow rotated.plan (Text.ofString "a,b") = head := by decide +kernel
    rw [hhead,Except.ok.injEq,Prod.mk.injEq] at hfresh
    exact hfresh
  have hrow : Leaves rotated (headed rotated.plan (Text.ofString "a,b")) (Text.ofString "1,2")
      row := ⟨rfl,by decide +kernel,rfl⟩
  obtain ⟨hline,hcolumns⟩ := hlines [Text.ofString "1"] _ row hrow rfl
  refine ⟨hplan,hp,hheader.trans (by decide +kernel),hline.trans (by decide +kernel),?_⟩
  have hx : fields rotated (headed rotated.plan (Text.ofString "a,b")) head =
      .ok (Text.splitOn (Text.ofString ",") (Text.ofString "x,a,b,a")) := by decide +kernel
  have hy : fields rotated (headed rotated.plan (Text.ofString "a,b")) row =
      .ok (Text.splitOn (Text.ofString ",") (Text.ofString "7,1,2,1")) := by decide +kernel
  have hps : printedColumns rotated (headed rotated.plan (Text.ofString "a,b")) head =
      .ok [2,0,1,0] := by decide +kernel
  rw [hps] at hcolumns
  obtain ⟨xs,ys,hxs,hys,hat,hat'⟩ := hcolumns
  obtain rfl := Except.ok.inj (hx.symm.trans hxs)
  obtain rfl := Except.ok.inj (hy.symm.trans hys)
  exact ⟨hat,hat'⟩

end Stream
end CellScript
