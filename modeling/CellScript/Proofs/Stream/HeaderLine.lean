import Mathlib
import CellScript.Proofs.Row.RepeatedColumn
import CellScript.Proofs.Shorthand.NewColumn
import CellScript.Proofs.Stream.NamedAccess
import CellScript.Proofs.Text.Lines

/-! The header as it is printed. Behind its own cells it has one for each new column. A label that is
repeated stands in the last of its cells only, and the earlier ones are blank. -/
namespace CellScript

namespace Layout

/-- The cells of columns of which some have been labelled: a label stands in the last column that has
it. -/
def labelled (done : List Text) : List Text → List Text
  | [] => []
  | name::names => (if name ∈ done ∧ name ∉ names then name else [])::labelled done names

def finalNames : List Text → List Text
  | [] => []
  | name::names => (if name ∈ names then [] else name)::finalNames names

@[simp] lemma length_labelled (done names : List Text) :
    (labelled done names).length = names.length := by
  induction names with
  | nil => rfl
  | cons name names ih => simp [labelled,ih]

lemma labelled_nil (names : List Text) : labelled [] names = names.map fun _ => [] := by
  induction names with
  | nil => rfl
  | cons name names ih => simp [labelled,ih]

lemma labelled_all {done names : List Text} (h : names ⊆ done) :
    labelled done names = finalNames names := by
  induction names with
  | nil => rfl
  | cons name names ih =>
    have hname : name ∈ done := h (by simp)
    rw [labelled,finalNames,ih fun x hx => h (by simp [hx])]
    by_cases hm : name ∈ names <;> simp [hm,hname]

lemma labelled_concat_of_not_mem {name : Text} {names : List Text} (h : name ∉ names)
    (done : List Text) : labelled (done ++ [name]) names = labelled done names := by
  induction names with
  | nil => rfl
  | cons x names ih =>
    simp only [List.mem_cons,not_or] at h
    rw [labelled,labelled,ih h.2]
    simp [Ne.symm h.1]

/-- A label is written into the last of its cells. -/
lemma set_labelled {name : Text} {names : List Text} {i : ℕ}
    (h : lastPosition? name names = some i) (done : List Text) :
    (labelled done names).set i name = labelled (done ++ [name]) names := by
  induction names generalizing i with
  | nil => simp [lastPosition?] at h
  | cons x names ih =>
    rw [lastPosition?] at h
    cases hx : lastPosition? name names with
    | some j =>
      simp only [hx,Option.some.injEq] at h
      have hmem : name ∈ names := List.mem_of_getElem? (lastPosition?_eq_some_iff.mp hx).1
      rw [← h,labelled,labelled,List.set_cons_succ,ih hx]
      by_cases hxn : x = name
      · simp [hxn,hmem]
      · simp [hxn]
    | none =>
      simp only [hx,Option.ite_none_right_eq_some,Option.some.injEq] at h
      obtain ⟨rfl,rfl⟩ := h
      have hmem : x ∉ names := fun hm => by
        have hsome := isSome_lastPosition? hm
        simp [hx] at hsome
      rw [labelled,labelled,List.set_cons_zero,labelled_concat_of_not_mem hmem]
      simp [hmem]

/-- Without repetitions every label stands in its own cell. -/
lemma finalNames_of_nodup {names : List Text} (h : names.Nodup) : finalNames names = names := by
  induction names with
  | nil => rfl
  | cons name names ih =>
    obtain ⟨hname,hrest⟩ := List.nodup_cons.mp h
    rw [finalNames,if_neg hname,ih hrest]

lemma length_flatMap_finalNames_le (sep : Text) (names : List Text) :
    ((finalNames names).flatMap (sep ++ ·)).length ≤ (names.flatMap (sep ++ ·)).length := by
  induction names with
  | nil => simp [finalNames]
  | cons name names ih =>
    simp only [finalNames,List.flatMap_cons,List.length_append]
    split
    · simp only [List.length_nil]
      omega
    · omega

/-- The labels can be read off the printed cells only when none is repeated. -/
lemma flatMap_finalNames_eq_iff (sep : Text) {names : List Text} (h : ∀ name ∈ names, name ≠ []) :
    (finalNames names).flatMap (sep ++ ·) = names.flatMap (sep ++ ·) ↔ names.Nodup := by
  refine ⟨fun heq => ?_,fun hnodup => by rw [finalNames_of_nodup hnodup]⟩
  induction names with
  | nil => exact .nil
  | cons name names ih =>
    have hle := length_flatMap_finalNames_le sep names
    have hpos := List.length_pos_of_ne_nil (h name (by simp))
    simp only [finalNames,List.flatMap_cons] at heq
    split at heq
    · have hlen := congrArg List.length heq
      simp only [List.length_append,List.length_nil] at hlen
      omega
    · rename_i hname
      have hrest := ih (fun x hx => h x (by simp [hx])) (List.append_cancel_left heq)
      exact List.nodup_cons.mpr ⟨hname,hrest⟩

end Layout

namespace Plan

lemma options_ofOptions {o : Options} {plan : Plan} (h : ofOptions o = .ok plan) :
    plan.options = o := by
  obtain ⟨f,b,a,-,-,-,rfl⟩ := ofOptions_eq_ok h
  rfl

/-- The statement of a plan, if it is not blank, gives the code and the new columns. -/
lemma newHeaders_ofOptions {o : Options} {plan : Plan} (h : ofOptions o = .ok plan) :
    (Text.blankOnly o.statement = true ∧ plan.newHeaders = []) ∨
      ∃ x, Shorthand.expand .statement o.autoQuote o.statement = .ok x ∧
        plan.body = some x.code ∧ plan.newHeaders = x.newHeaders := by
  obtain ⟨f,b,a,-,hb,-,rfl⟩ := ofOptions_eq_ok h
  cases hblank : Text.blankOnly o.statement with
  | true =>
    obtain rfl : none = b := Except.ok.inj ((stage?_of_blank hblank _ _ _).symm.trans hb)
    exact Or.inl ⟨rfl,rfl⟩
  | false =>
    obtain ⟨x,hx,rfl⟩ := (stage?_eq_ok_iff hblank).mp hb
    exact Or.inr ⟨x,hx,rfl,rfl⟩

lemma isLabel_newHeaders {o : Options} {plan : Plan} (h : ofOptions o = .ok plan) :
    ∀ label ∈ plan.newHeaders, Shorthand.IsLabel label := by
  rcases newHeaders_ofOptions h with ⟨-,hnone⟩ | ⟨x,hx,-,hsome⟩
  · simp [hnone]
  · rw [hsome]
    exact Shorthand.isLabel_of_expand hx

end Plan

namespace Stream

open Layout (labelled finalNames)

/-- Labels are written one after the other behind the header's own cells. -/
lemma nameColumns_labelled {l : Layout} {cells : List Text} (hl : l.header = some cells)
    {names : List Text} (hnames : names ⊆ l.extra) (done : List Text) :
    nameColumns l ⟨cells ++ labelled done l.extra,cells.length⟩ names =
      .ok ⟨cells ++ labelled (done ++ names) l.extra,cells.length⟩ := by
  induction names generalizing done with
  | nil => simp [nameColumns,pure,Except.pure]
  | cons name names ih =>
    have hname : name ∈ l.extra := hnames (by simp)
    obtain ⟨i,hi⟩ := Option.isSome_iff_exists.mp (Layout.isSome_lastPosition? hname)
    have hlt : i < l.extra.length := Layout.lastPosition?_lt hi
    have hresolve : l.resolve cells.length name = .ok (cells.length+i) := by
      simp [Layout.resolve,Layout.position?,hl,Layout.lastPosition?_append,hi]
    have hpad : Row.pad (cells ++ labelled done l.extra) (cells.length+i+1) =
        cells ++ labelled done l.extra := by
      have hnone : cells.length+i+1-(cells ++ labelled done l.extra).length = 0 := by
        simp only [List.length_append,Layout.length_labelled]
        omega
      rw [Row.pad,hnone,List.replicate_zero,List.append_nil]
    have hset : Row.set l ⟨cells ++ labelled done l.extra,cells.length⟩ (.name name) (.str name) =
        .ok ⟨cells ++ labelled (done ++ [name]) l.extra,cells.length⟩ := by
      have hwrite : Row.writePosition l ⟨cells ++ labelled done l.extra,cells.length⟩
          (.name name) = .ok (cells.length+i) := hresolve
      rw [Row.set_of_writePosition (v := .str name) rfl hwrite]
      dsimp only
      rw [hpad,List.set_append_right _ _ (by omega),Nat.add_sub_cancel_left,Layout.set_labelled hi]
    rw [nameColumns,List.foldlM_cons,hset]
    have hrest := ih (fun x hx => hnames (by simp [hx])) (done ++ [name])
    rw [List.append_assoc,List.singleton_append] at hrest
    exact hrest

/-- The header row: its own cells, and those of the new columns. -/
def headerRow (p : Plan) (header : Text) : Row :=
  let cells := (rowOf (fresh p).layout header).cells
  ⟨cells ++ finalNames p.newHeaders,cells.length⟩

lemma registerHeader_fresh (p : Plan) (header : Text) :
    registerHeader p (fresh p).layout (rowOf (fresh p).layout header) =
      .ok (headed p header,headerRow p header) := by
  generalize hrow : rowOf (fresh p).layout header = row
  obtain ⟨cells,rfl⟩ : ∃ cells, row = ⟨cells,cells.length⟩ := ⟨_,hrow.symm⟩
  have hregister : Row.register (fresh p).layout ⟨cells,cells.length⟩ =
      .ok (headed p header,⟨cells ++ labelled [] p.newHeaders,cells.length⟩) := by
    rw [Row.register,List.take_length,Layout.labelled_nil,headed,hrow]
    rfl
  have hheader : (headed p header).header = some cells := by rw [headed,hrow]
  have hlabelled := nameColumns_labelled hheader (List.Subset.refl p.newHeaders) []
  rw [registerHeader,hregister]
  change (do return (_,← nameColumns _ _ _)) = _
  rw [show p.newHeaders = (headed p header).extra from rfl] at hlabelled ⊢
  rw [hlabelled,List.nil_append,Layout.labelled_all (List.Subset.refl _),headerRow,hrow]
  rfl

/-- The first line of a stream. It is printed unless that is not asked for. -/
lemma process_header {p : Pipeline} (hheader : p.plan.options.hasHeader = true) {s : Stream}
    (hline : s.line = 0) (hlayout : s.layout = (fresh p.plan).layout) (raw : Text) :
    process p s raw = (⟨headed p.plan raw,1,s.quiet⟩,
      if p.plan.options.printHeader && !s.quiet then
        match output p (headed p.plan raw) (headerRow p.plan raw) with
        | .ok text => .ok (.printed text)
        | .error error => .error ⟨1,.select,error⟩
      else .ok .hidden) := by
  obtain ⟨layout,line,quiet⟩ := s
  obtain rfl : line = 0 := hline
  obtain rfl : layout = (fresh p.plan).layout := hlayout
  have hfirst : process p ⟨(fresh p.plan).layout,0,quiet⟩ raw =
      processHeader p ⟨(fresh p.plan).layout,1,quiet⟩ raw := by
    rw [process]
    simp only [hheader]
    rfl
  rw [hfirst,processHeader]
  simp only [registerHeader_fresh]
  cases p.plan.options.printHeader <;> cases quiet <;>
    cases output p (headed p.plan raw) (headerRow p.plan raw) <;> rfl

lemma separator_ne_nil (o : Options) : o.separator ≠ [] := by
  rw [Options.separator]
  split
  · decide
  · rename_i h
    simpa using h

lemma delimiter_fresh (p : Plan) : (fresh p).layout.delimiter = p.options.separator := by
  have hne := separator_ne_nil p.options
  simp [fresh,Layout.new,hne]

/-- A header row is printed as the line it was read from, with the cells of the new columns. -/
lemma text_headerRow (p : Plan) (raw : Text) : (headerRow p raw).text (headed p raw) =
    Text.dropEnding [Text.ascii '\r'] raw ++
      (finalNames p.newHeaders).flatMap (p.options.separator ++ ·) := by
  have hsep := separator_ne_nil p.options
  have hdelimiter : (headed p raw).delimiter = p.options.separator := delimiter_fresh p
  have hcells : (rowOf (fresh p).layout raw).cells =
      Text.splitOn p.options.separator (Text.dropEnding [Text.ascii '\r'] raw) := by
    rw [← delimiter_fresh p]
    rfl
  have hne : Text.splitOn p.options.separator (Text.dropEnding [Text.ascii '\r'] raw) ≠ [] :=
    Text.splitFrom_ne_nil _ _ _
  rw [Row.text,headerRow,hdelimiter,hcells]
  dsimp only
  rw [Text.join_append hne,Text.join_splitOn hsep]

/-- Without a selection rows are printed as they are. -/
lemma output_of_no_selection {plan : Plan} {p : Pipeline} (hp : Pipeline.compile plan = .ok p)
    (hselect : plan.projection = []) (l : Layout) (row : Row) :
    output p l row = .ok (row.text l) := by
  obtain ⟨-,-,-,-,hprojection⟩ := Pipeline.compile_eq_ok_iff.mp hp
  rw [hselect] at hprojection
  have hall : p.projection = [] := (Except.ok.inj hprojection).symm
  rw [output,hall]
  rfl

/-- The header line of a fresh stream, without a selection. The header is printed as it is read, and
behind it a cell for each new column. All of their labels stand there only when none is repeated. -/
theorem header_line_labels {o : Options} {plan : Plan} {p : Pipeline}
    (hplan : Plan.ofOptions o = .ok plan) (hp : Pipeline.compile plan = .ok p)
    (hheader : o.hasHeader = true) (hprint : o.printHeader = true)
    (hselect : plan.projection = []) (raw : Text) :
    let line := Text.dropEnding [Text.ascii '\r'] raw
    (process p (fresh plan) raw).2 = .ok (.printed
      (line ++ (finalNames plan.newHeaders).flatMap (o.separator ++ ·))) ∧
    ((process p (fresh plan) raw).2 = .ok (.printed
      (line ++ plan.newHeaders.flatMap (o.separator ++ ·))) ↔ plan.newHeaders.Nodup) := by
  intro line
  have hoptions := Plan.options_ofOptions hplan
  have hall := output_of_no_selection hp hselect
  obtain ⟨rfl,-⟩ := Pipeline.compile_eq_ok_iff.mp hp
  have houtput : output p (headed p.plan raw) (headerRow p.plan raw) =
      .ok (line ++ (finalNames p.plan.newHeaders).flatMap (o.separator ++ ·)) := by
    rw [hall,text_headerRow,hoptions]
  have hprinted : (process p (fresh p.plan) raw).2 = .ok (.printed
      (line ++ (finalNames p.plan.newHeaders).flatMap (o.separator ++ ·))) := by
    rw [process_header (by rwa [hoptions]) rfl rfl,houtput,hoptions,hprint]
    rfl
  refine ⟨hprinted,?_⟩
  have hlabels : ∀ name ∈ p.plan.newHeaders, name ≠ [] :=
    fun name hn => (Plan.isLabel_newHeaders hplan name hn).ne_nil
  rw [hprinted,← Layout.flatMap_finalNames_eq_iff o.separator hlabels]
  simp

/-- Two new columns, of which the second has no label of its own. -/
def numbered : Pipeline where
  plan := ⟨{ statement := Text.ofString "s[+x] = 1; s[+] = 2" },none,
    some (Text.ofString "row[\"x\"] = 1;row[\"_2\"] = 2"),none,[],
    [Text.ofString "x",Text.ofString "_2"]⟩
  filter := none
  body := some ⟨Text.ofString "row[\"x\"] = 1;row[\"_2\"] = 2",
    [.store none (some (.string (Text.ofString "x"))) (.int 1),
      .store none (some (.string (Text.ofString "_2"))) (.int 2)]⟩
  afterFilter := none
  projection := []

set_option maxRecDepth 4000 in
/-- The second column has its number for a label. -/
theorem header_line_labels_numbered :
    Plan.ofOptions numbered.plan.options = .ok numbered.plan ∧
    Pipeline.compile numbered.plan = .ok numbered ∧
    (process numbered (fresh numbered.plan) (Text.ofString "a\r")).2 =
      .ok (.printed (Text.ofString "a,x,_2")) := by
  have hplan : Plan.ofOptions numbered.plan.options = .ok numbered.plan := by decide +kernel
  have hp : Pipeline.compile numbered.plan = .ok numbered := rfl
  obtain ⟨hprinted,-⟩ := header_line_labels hplan hp rfl rfl rfl (Text.ofString "a\r")
  refine ⟨hplan,hp,hprinted.trans ?_⟩
  decide +kernel

/-- The same label for two new columns. -/
def twins : Pipeline where
  plan := ⟨{ statement := Text.ofString "s[+x] = 1; s[+x] = 2" },none,
    some (Text.ofString "row[\"x\"] = 1;row[\"x\"] = 2"),none,[],
    [Text.ofString "x",Text.ofString "x"]⟩
  filter := none
  body := some ⟨Text.ofString "row[\"x\"] = 1;row[\"x\"] = 2",
    [.store none (some (.string (Text.ofString "x"))) (.int 1),
      .store none (some (.string (Text.ofString "x"))) (.int 2)]⟩
  afterFilter := none
  projection := []

set_option maxRecDepth 4000 in
/-- A repeated label leaves its first column without one. -/
theorem header_line_twins :
    ¬ ∀ (o : Options) (plan : Plan) (p : Pipeline) (raw : Text), Plan.ofOptions o = .ok plan →
      Pipeline.compile plan = .ok p → o.hasHeader = true → o.printHeader = true →
      plan.projection = [] → (process p (fresh plan) raw).2 = .ok (.printed
        (Text.dropEnding [Text.ascii '\r'] raw ++ plan.newHeaders.flatMap (o.separator ++ ·))) := by
  intro h
  have hlabels := h twins.plan.options twins.plan twins (Text.ofString "a") (by decide +kernel) rfl
    rfl rfl rfl
  exact absurd hlabels (by decide +kernel)

end Stream
end CellScript
