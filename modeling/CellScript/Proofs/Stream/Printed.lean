import Mathlib
import CellScript.Proofs.Row.Sheet
import CellScript.Proofs.Stream.NewColumn

/-! The rows that lines are printed from, and how wide they are. Statements that store columns by name
widen a row no further than the columns reach, and the last new column widens it that far. -/
namespace CellScript

open Script (Scope Statement)

namespace Layout

/-- By its name a column stands among those of the header and the extra ones. -/
lemma resolve_lt {l : Layout} {names : List Text} (hl : l.header = some names) {name : Text}
    (h : name ∈ names ++ l.extra) (base : ℕ) :
    ∃ i, l.resolve base name = .ok i ∧ i < names.length+l.extra.length := by
  obtain ⟨i,hi⟩ := Option.isSome_iff_exists.mp (isSome_lastPosition? h)
  refine ⟨i,by simp [resolve,position?,hl,hi],?_⟩
  simpa using lastPosition?_lt hi

/-- The last extra column stands behind all others. -/
lemma resolve_last {l : Layout} {names more : List Text} {name : Text}
    (hl : l.header = some names) (hx : l.extra = more ++ [name]) (base : ℕ) :
    l.resolve base name = .ok (names.length+more.length) := by
  have hlast : lastPosition? name (names ++ l.extra) = some (names.length+more.length) := by
    rw [hx,← List.append_assoc,lastPosition?_eq_some_iff,
      List.drop_eq_nil_of_le (by simp [Nat.add_assoc])]
    simp
  simp [resolve,position?,hl,hlast]

@[simp] lemma length_finalNames (names : List Text) : (finalNames names).length = names.length := by
  induction names with
  | nil => rfl
  | cons name names ih => simp [finalNames,ih]

end Layout

namespace Script

def Statement.target? : Statement → Option Text
  | .store _ (some (.string name)) _ => some name
  | _ => none

/-- A store by name widens the row up to the column, unless it reaches there. -/
lemma exec_target {s s' : Scope} {st : Statement} {name : Text} (ht : st.target? = some name)
    (h : exec s st = .ok s') :
    ∃ i, s.layout.resolve s.row.base name = .ok i ∧ s'.layout = s.layout ∧
      s'.row.base = s.row.base ∧ s'.row.cells.length = max s.row.cells.length (i+1) := by
  unfold Statement.target? at ht
  split at ht
  · obtain rfl := Option.some.inj ht
    cases exec_eq_ok_iff.mp h with
    | store _ _ hk hset =>
      obtain rfl := Except.ok.inj hk
      obtain ⟨i,_,hwrite,-,-,hlength,hbase⟩ := Row.set_eq_ok hset
      exact ⟨i,hwrite,rfl,hbase,hlength⟩
  · simp at ht

/-- The columns that statements store into stand below a width. -/
def StoresBelow (l : Layout) (base width : ℕ) (sts : List Statement) : Prop :=
  ∀ st ∈ sts, ∃ name i, st.target? = some name ∧ l.resolve base name = .ok i ∧ i < width

/-- Statements that store columns below a width keep a row below it, and the row reaches behind each
of these columns. -/
lemma execAll_width {s s' : Scope} {sts : List Statement} {width : ℕ}
    (h : execAll s sts = (s',.ok ())) (hbelow : StoresBelow s.layout s.row.base width sts)
    (hwidth : s.row.cells.length ≤ width) :
    s.row.cells.length ≤ s'.row.cells.length ∧ s'.row.cells.length ≤ width ∧
      ∀ st ∈ sts, ∀ name i, st.target? = some name → s.layout.resolve s.row.base name = .ok i →
        i < s'.row.cells.length := by
  induction sts generalizing s with
  | nil =>
    obtain rfl : s = s' := congrArg Prod.fst h
    exact ⟨Nat.le_refl _,hwidth,by simp⟩
  | cons st rest ih =>
    obtain ⟨s₁,hst,h⟩ := execAll_cons_eq_ok h
    obtain ⟨name,i,ht,hi,hlt⟩ := hbelow st (by simp)
    obtain ⟨j,hj,hlayout,hbase,hlength⟩ := exec_target ht hst
    obtain rfl : i = j := Except.ok.inj (hi.symm.trans hj)
    have hrest : StoresBelow s₁.layout s₁.row.base width rest := by
      rw [hlayout,hbase]
      exact fun x hx => hbelow x (by simp [hx])
    obtain ⟨hgrows,hstays,hreaches⟩ := ih h hrest (by omega)
    rw [hlayout,hbase] at hreaches
    refine ⟨by omega,hstays,?_⟩
    intro x hx name' k hname hk
    rcases List.mem_cons.mp hx with rfl | hx
    · obtain rfl : name = name' := Option.some.inj (ht.symm.trans hname)
      obtain rfl : i = k := Except.ok.inj (hi.symm.trans hk)
      omega
    · exact hreaches x hx name' k hname hk

end Script

def Pipeline.statements (p : Pipeline) : List Statement := (p.body.map (·.statements)).getD []

namespace Stream

/-- The row that is left of a data line when it comes to be printed. -/
structure Leaves (p : Pipeline) (l : Layout) (raw : Text) (row : Row) : Prop where
  filter : meets p.filter l (rowOf l raw) = .ok true
  change : change p.body l (rowOf l raw) = .ok row
  afterFilter : meets p.afterFilter l row = .ok true

lemma lineVerdict_of_leaves {p : Pipeline} {l : Layout} {raw : Text} {row : Row}
    (h : Leaves p l raw row) :
    lineVerdict p l raw = (inStage .select (output p l row)).map .printed := by
  rw [lineVerdict,processRow_eq_finishRow h.filter h.change,finishRow,h.afterFilter]
  cases output p l row <;> rfl

lemma inStage_eq_ok_iff {α : Type} {stage : Stage} {x : Except Script.Error α} {a : α} :
    inStage stage x = .ok a ↔ x = .ok a := by
  cases x <;> simp [inStage]

/-- A line that is printed leaves a row that it is printed from. -/
lemma exists_leaves {p : Pipeline} {l : Layout} {raw text : Text}
    (h : lineVerdict p l raw = .ok (.printed text)) :
    ∃ row, Leaves p l raw row ∧ output p l row = .ok text := by
  rw [lineVerdict,processRow,bind_eq_ok_iff] at h
  obtain ⟨keep,hf,h⟩ := h
  cases keep with
  | false => simp [pure,Except.pure] at h
  | true =>
    obtain ⟨row,hc,h⟩ := bind_eq_ok_iff.mp h
    obtain ⟨keep,ha,h⟩ := bind_eq_ok_iff.mp h
    cases keep with
    | false => simp [pure,Except.pure] at h
    | true =>
      obtain ⟨t,ho,h⟩ := bind_eq_ok_iff.mp h
      obtain rfl : t = text := by simpa [pure,Except.pure] using h
      simp only [inStage_eq_ok_iff] at hf hc ha ho
      exact ⟨row,⟨hf,hc,ha⟩,ho⟩

/-- A row that is changed is the one that the statements reach. -/
lemma change_eq_ok {p : Pipeline} {l : Layout} {row row' : Row}
    (h : change p.body l row = .ok row') :
    ∃ s', Script.execAll ⟨l,row,[]⟩ p.statements = (s',.ok ()) ∧ s'.row = row' := by
  cases hbody : p.body with
  | none =>
    rw [hbody] at h
    refine ⟨⟨l,row,[]⟩,?_,Except.ok.inj h⟩
    simp [Pipeline.statements,hbody,Script.execAll]
  | some program =>
    simp only [hbody,change,Script.Program.run] at h
    rcases hrun : Script.execAll ⟨l,row,[]⟩ program.statements with ⟨s',e | _⟩
    · simp [hrun] at h
    · rw [hrun] at h
      refine ⟨s',?_,Except.ok.inj h⟩
      simpa [Pipeline.statements,hbody] using hrun

/-- Statements that store into columns, and into each new one, leave a row with all columns of a line
that has those of the header. -/
lemma length_of_leaves {p : Pipeline} {l : Layout} {names : List Text} (hl : l.header = some names)
    (htargets : ∀ st ∈ p.statements, ∃ name ∈ names ++ l.extra, st.target? = some name)
    (hnew : ∀ name ∈ l.extra, ∃ st ∈ p.statements, st.target? = some name) {raw : Text} {row : Row}
    (hline : (rowOf l raw).cells.length = names.length) (h : Leaves p l raw row) :
    row.cells.length = names.length+l.extra.length := by
  obtain ⟨s',hrun,rfl⟩ := change_eq_ok h.change
  have hbelow : Script.StoresBelow l (rowOf l raw).base (names.length+l.extra.length)
      p.statements := by
    intro st hst
    obtain ⟨name,hname,ht⟩ := htargets st hst
    obtain ⟨i,hi,hlt⟩ := Layout.resolve_lt hl hname (rowOf l raw).base
    exact ⟨name,i,ht,hi,hlt⟩
  obtain ⟨hgrows,hstays,hreaches⟩ := Script.execAll_width hrun hbelow (by simp [hline])
  simp only [hline] at hgrows
  rcases List.eq_nil_or_concat l.extra with hnone | ⟨more,name,hmore⟩
  · simp only [hnone,List.length_nil] at hstays ⊢
    omega
  · -- the last new column is stored into, and it stands behind all others
    rw [List.concat_eq_append] at hmore
    obtain ⟨st,hst,ht⟩ := hnew name (by simp [hmore])
    have hlast := hreaches st hst name _ ht (Layout.resolve_last hl hmore _)
    simp only [hmore,List.length_append,List.length_singleton] at hstays ⊢
    omega

/-- Lines of one width are printed as rows of one width. Where the statements of a plan store into
columns of the header and new ones only, and into each new one at least once, the header row has the
columns of both, and so has the row of every printed line with as many cells as the header line,
whatever lines came before. -/
theorem rows_have_one_width {o : Options} {plan : Plan} {p : Pipeline}
    (hplan : Plan.ofOptions o = .ok plan) (hp : Pipeline.compile plan = .ok p)
    (hheader : o.hasHeader = true) (hselect : plan.projection = []) (header : Text)
    (htargets : ∀ st ∈ p.statements,
      ∃ name ∈ (rowOf (fresh plan).layout header).cells ++ plan.newHeaders,
        st.target? = some name)
    (hnew : ∀ name ∈ plan.newHeaders, ∃ st ∈ p.statements, st.target? = some name)
    {start : Plan → Stream} (hstart : start = fresh ∨ start = next) :
    let n := (rowOf (fresh plan).layout header).cells.length
    let width := n+plan.newHeaders.length
    ∃ l head, registerHeader plan (start plan).layout (rowOf (start plan).layout header) =
        .ok (l,head) ∧ head.cells.length = width ∧
      (process p (start plan) header).2 =
        .ok (if o.printHeader && !(start plan).quiet then .printed (head.text l) else .hidden) ∧
      ∀ before line text, (rowOf (fresh plan).layout line).cells.length = n →
        (process p (advance p (start plan) (header::before)) line).2 = .ok (.printed text) →
        ∃ row, Leaves p l line row ∧ text = row.text l ∧ row.cells.length = width := by
  intro n width
  have hoptions := Plan.options_ofOptions hplan
  have houtput := output_of_no_selection hp hselect
  obtain ⟨rfl,-⟩ := Pipeline.compile_eq_ok_iff.mp hp
  have hmode : p.plan.options.hasHeader = true := by rwa [hoptions]
  have hfresh := layout_start hstart p.plan
  refine ⟨headed p.plan header,headerRow p.plan header,?_,?_,?_,?_⟩
  · rw [hfresh.1,registerHeader_fresh]
  · simp [headerRow,width,n]
  · rw [process_header hmode hfresh.2 hfresh.1,houtput,hoptions]
    split <;> rfl
  · intro before line text hline hprinted
    have hverdict := verdict_after_header hmode hstart header before line
    rw [hprinted] at hverdict
    obtain ⟨row,hrow,hout⟩ := exists_leaves (l := headed p.plan header) hverdict.symm
    rw [houtput,Except.ok.injEq] at hout
    have hwidth := length_of_leaves (l := headed p.plan header) rfl htargets hnew hline hrow
    exact ⟨row,hrow,hout.symm,hwidth⟩

set_option maxRecDepth 4000 in
/-- One of the new columns has the name of a column of the header, and a shorter line came before. -/
theorem rows_have_one_width_copied :
    let lines := [Text.ofString "b,n",Text.ofString "1"]
    Plan.ofOptions copied.plan.options = .ok copied.plan ∧
    Pipeline.compile copied.plan = .ok copied ∧
    (process copied (fresh copied.plan) (Text.ofString "b,n")).2 =
      .ok (.printed (Text.ofString "b,n,n,_2")) ∧
    ∃ l row, Leaves copied l (Text.ofString "5,6") row ∧ row.text l = Text.ofString "5,6,7,7" ∧
      row.cells.length = 4 ∧
      (process copied (advance copied (fresh copied.plan) lines) (Text.ofString "5,6")).2 =
        .ok (.printed (row.text l)) := by
  intro lines
  have hplan : Plan.ofOptions copied.plan.options = .ok copied.plan := by decide +kernel
  have hp : Pipeline.compile copied.plan = .ok copied := rfl
  have hheader : (process copied (fresh copied.plan) (Text.ofString "b,n")).2 =
      .ok (.printed (Text.ofString "b,n,n,_2")) := by decide +kernel
  have hprinted : (process copied (advance copied (fresh copied.plan) lines)
      (Text.ofString "5,6")).2 = .ok (.printed (Text.ofString "5,6,7,7")) := by decide +kernel
  obtain ⟨l,_,-,-,-,hlines⟩ := rows_have_one_width hplan hp rfl rfl (Text.ofString "b,n")
    (by decide +kernel) (by decide +kernel) (Or.inl rfl)
  obtain ⟨row,hrow,htext,hwidth⟩ :=
    hlines [Text.ofString "1"] (Text.ofString "5,6") _ (by decide +kernel) hprinted
  exact ⟨hplan,hp,hheader,l,row,hrow,htext.symm,hwidth,htext ▸ hprinted⟩

end Stream
end CellScript
