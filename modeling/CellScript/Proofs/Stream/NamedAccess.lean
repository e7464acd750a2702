import Mathlib
import CellScript.Proofs.Row.ExtraColumn
import CellScript.Proofs.Shorthand.Filter
import CellScript.Proofs.Shorthand.Positioned
import CellScript.Proofs.Stream.History
import CellScript.Proofs.Stream.Session
import CellScript.Stream.Cause

/-! Columns by name and by position. A plan in which a column of the header is named and the plan in
which its position stands instead give the same for every data line that has the column. -/
namespace CellScript

open Script (Exchanged OneKey Bracketless)
open Shorthand (ColumnName positioned)

/-- The same run, with a position for a column name in every stage. -/
def Options.positioned (n : Text) (k : ℕ) (o : Options) : Options :=
  { o with
    filter := Shorthand.positioned n k o.filter
    statement := Shorthand.positioned n k o.statement
    afterFilter := Shorthand.positioned n k o.afterFilter }

/-- The code of the stages before printing. -/
def Plan.codes (p : Plan) : List Text := p.filter.toList ++ p.body.toList ++ p.afterFilter.toList

section

variable {n : Text} {k : ℕ}

lemma Plan.stage?_of_blank {src : Text} (h : Text.blankOnly src = true) (stage : Stage)
    (mode : Shorthand.Mode) (quoting : Bool) : stage? stage mode quoting src = .ok none := by
  rw [stage?,if_pos h]

lemma Plan.stage?_eq_ok_iff {stage : Stage} {mode : Shorthand.Mode} {quoting : Bool} {src : Text}
    (h : Text.blankOnly src = false) {x : Option Shorthand.Expansion} :
    stage? stage mode quoting src = .ok x ↔
      ∃ y, Shorthand.expand mode quoting src = .ok y ∧ x = some y := by
  rw [stage?,h]
  cases Shorthand.expand mode quoting src with
  | error e => simp
  | ok y => simp [eq_comm]

lemma Plan.stage?_positioned (hn : ColumnName n) (k : ℕ) {stage : Stage} {mode : Shorthand.Mode}
    {src : Text} {x : Option Shorthand.Expansion} (h : stage? stage mode true src = .ok x) :
    ∃ y, stage? stage mode true (Shorthand.positioned n k src) = .ok y ∧
      Option.Rel (fun a b => b.newHeaders = a.newHeaders ∧ Exchanged n k a.code b.code) x y := by
  have hpositioned := Shorthand.blankOnly_positioned hn k src
  cases hblank : Text.blankOnly src with
  | true =>
    obtain rfl : none = x := Except.ok.inj ((stage?_of_blank hblank _ _ _).symm.trans h)
    exact ⟨none,stage?_of_blank (hpositioned.trans hblank) _ _ _,.none⟩
  | false =>
    obtain ⟨a,ha,rfl⟩ := (stage?_eq_ok_iff hblank).mp h
    obtain ⟨b,hb,hab⟩ := Shorthand.expand_positioned hn k mode ha
    exact ⟨some b,(stage?_eq_ok_iff (hpositioned.trans hblank)).mpr ⟨b,hb,rfl⟩,.some hab⟩

/-- Plans with the same code but for the keys. -/
structure Plan.Positioned (n : Text) (k : ℕ) (p q : Plan) : Prop where
  options : q.options = p.options.positioned n k
  filter : Option.Rel (Exchanged n k) p.filter q.filter
  body : Option.Rel (Exchanged n k) p.body q.body
  afterFilter : Option.Rel (Exchanged n k) p.afterFilter q.afterFilter
  projection : q.projection = p.projection
  newHeaders : q.newHeaders = p.newHeaders

lemma Plan.ofOptions_eq_ok {o : Options} {plan : Plan} (h : ofOptions o = .ok plan) :
    ∃ f b a, stage? .filter .filter o.autoQuote o.filter = .ok f ∧
      stage? .statement .statement o.autoQuote o.statement = .ok b ∧
      stage? .afterFilter .filter o.autoQuote o.afterFilter = .ok a ∧
      plan = ⟨o,f.map (·.code),b.map (·.code),a.map (·.code),selectors o.autoQuote o.select,
        (b.map (·.newHeaders)).getD []⟩ := by
  simp only [ofOptions,bind_eq_ok_iff] at h
  obtain ⟨f,hf,b,hb,a,ha,h⟩ := h
  exact ⟨f,b,a,hf,hb,ha,(Except.ok.inj h).symm⟩

lemma Plan.ofOptions_of_stages {o : Options} {f b a : Option Shorthand.Expansion}
    (hf : stage? .filter .filter o.autoQuote o.filter = .ok f)
    (hb : stage? .statement .statement o.autoQuote o.statement = .ok b)
    (ha : stage? .afterFilter .filter o.autoQuote o.afterFilter = .ok a) :
    ofOptions o = .ok ⟨o,f.map (·.code),b.map (·.code),a.map (·.code),
      selectors o.autoQuote o.select,(b.map (·.newHeaders)).getD []⟩ := by
  rw [ofOptions,hf,hb,ha]
  rfl

/-- With positions for a column name a plan has the same code but for the keys. -/
theorem Plan.ofOptions_positioned (hn : ColumnName n) (k : ℕ) {o : Options} {plan : Plan}
    (hq : o.autoQuote = true) (h : ofOptions o = .ok plan) :
    ∃ plan', ofOptions (o.positioned n k) = .ok plan' ∧ plan.Positioned n k plan' := by
  obtain ⟨f,b,a,hf,hb,ha,rfl⟩ := ofOptions_eq_ok h
  rw [hq] at hf hb ha
  obtain ⟨f',hf',hff⟩ := stage?_positioned hn k hf
  obtain ⟨b',hb',hbb⟩ := stage?_positioned hn k hb
  obtain ⟨a',ha',haa⟩ := stage?_positioned hn k ha
  have hcode : ∀ {x y : Option Shorthand.Expansion}, Option.Rel
      (fun a b => b.newHeaders = a.newHeaders ∧ Exchanged n k a.code b.code) x y →
      Option.Rel (Exchanged n k) (x.map (·.code)) (y.map (·.code)) := by
    intro x y hxy
    cases hxy with
    | none => exact .none
    | some h => exact .some h.2
  refine ⟨⟨o.positioned n k,f'.map (·.code),b'.map (·.code),a'.map (·.code),
    selectors o.autoQuote o.select,(b'.map (·.newHeaders)).getD []⟩,?_,
    rfl,hcode hff,hcode hbb,hcode haa,rfl,?_⟩
  · rw [ofOptions]
    simp only [Options.positioned,hq,hf',hb',ha']
    rfl
  · cases hbb with
    | none => rfl
    | some hheaders => exact hheaders.1

structure Pipeline.Alike (K : Text → Int64 → Prop) (p q : Pipeline) : Prop where
  filter : Option.Rel (fun f g => f.expr.Alike K g.expr) p.filter q.filter
  body : Option.Rel (Script.Program.Alike K) p.body q.body
  afterFilter : Option.Rel (fun f g => f.expr.Alike K g.expr) p.afterFilter q.afterFilter
  projection : q.projection = p.projection

/-- A stage that has code is compiled alike when its code is. -/
lemma Pipeline.exists_compiled {α : Type} {stage : Stage} {compile : Text → Except Script.Error α}
    (read : Option Text → Except Plan.Error (Option α)) (hnone : read none = .ok none)
    (hsome : ∀ code, read (some code) = (inStage stage (compile code)).map some)
    {P : α → α → Prop} {c c' : Option Text} (hc : Option.Rel (Exchanged n k) c c')
    (hcode : ∀ code ∈ c, ∀ code' a, Exchanged n k code code' → compile code = .ok a →
      ∃ b, compile code' = .ok b ∧ P a b) {x : Option α} (h : read c = .ok x) :
    ∃ y, read c' = .ok y ∧ Option.Rel P x y := by
  cases hc with
  | none =>
    rw [hnone,Except.ok.injEq] at h
    exact ⟨none,hnone,h ▸ .none⟩
  | @some code code' he =>
    rw [hsome] at h
    cases ha : compile code with
    | error e => simp [ha,inStage,Except.map] at h
    | ok a =>
      simp only [ha,inStage,Except.map,Except.ok.injEq] at h
      obtain ⟨b,hb,hab⟩ := hcode code rfl code' a he ha
      exact ⟨some b,by rw [hsome,hb]; rfl,h ▸ .some hab⟩

/-- The same code but for the keys is compiled to stages that are alike. -/
theorem Pipeline.compile_positioned (hn : ColumnName n) (hk : k < 2^63) {plan plan' : Plan}
    (hpp : plan.Positioned n k plan') (hb : ∀ code ∈ plan.codes, Bracketless code) {p : Pipeline}
    (h : compile plan = .ok p) :
    ∃ p', compile plan' = .ok p' ∧ p.Alike (OneKey n k) p' := by
  obtain ⟨-,hf,hbody,ha,hs⟩ := compile_eq_ok_iff.mp h
  have hbrackets : ∀ {code}, code ∈ plan.filter ∨ code ∈ plan.body ∨ code ∈ plan.afterFilter →
      Bracketless code := fun hc => hb _ (by simpa [Plan.codes] using hc)
  have hformula : ∀ code, Bracketless code → ∀ code' f, Exchanged n k code code' →
      Script.Formula.compile code = .ok f → ∃ g, Script.Formula.compile code' = .ok g ∧
        f.expr.Alike (OneKey n k) g.expr :=
    fun code hc code' f he hf => Script.Formula.compile_exchanged hn.toPlainName hk hf hc he
  obtain ⟨f',hf',hff⟩ := exists_compiled (formula? .filter) rfl (fun _ => rfl) hpp.filter
    (fun code hc => hformula code (hbrackets (Or.inl hc))) hf
  obtain ⟨a',ha',haa⟩ := exists_compiled (formula? .afterFilter) rfl (fun _ => rfl)
    hpp.afterFilter (fun code hc => hformula code (hbrackets (Or.inr (Or.inr hc)))) ha
  obtain ⟨b',hb',hbb⟩ := exists_compiled (program? .statement) rfl (fun _ => rfl) hpp.body
    (fun code hc code' b he hb => Script.Program.compile_exchanged hn.toPlainName hk hb
      (hbrackets (Or.inr (Or.inl hc))) he) hbody
  rw [← hpp.projection] at hs
  exact ⟨⟨plan',f',b',a',p.projection⟩,compile_eq_ok_iff.mpr ⟨rfl,hf',hb',ha',hs⟩,
    hff,hbb,haa,rfl⟩

end

section

variable {K : Text → Int64 → Prop}

namespace Stream

lemma meets_alike {f g : Option Script.Formula}
    (h : Option.Rel (fun f g => f.expr.Alike K g.expr) f g) {l : Layout} {row : Row}
    (hs : row.Swaps K l) : Matched (Script.Error.Alike K) Eq (meets f l row) (meets g l row) := by
  cases h with
  | none => exact .ok rfl
  | some hfg =>
    have hone : Value.OneToOne fun _ _ : Text.Position => False := ⟨by simp,by simp⟩
    have hscope : Script.Scope.Alike K (fun _ _ => False) l ⟨l,row,[]⟩ ⟨l,row,[]⟩ :=
      ⟨rfl,rfl,rfl,hs,.nil⟩
    refine (Script.eval_alike hone hscope _ hfg).bind fun v w hvw => ?_
    rw [hvw.seen.truthy]
    exact .ok rfl

lemma change_alike {b c : Option Script.Program}
    (h : Option.Rel (Script.Program.Alike K) b c) {l : Layout} {row : Row} (hs : row.Swaps K l) :
    Matched (Script.Error.Alike K) (fun r r' => r' = r ∧ r.Swaps K l) (change b l row)
      (change c l row) := by
  cases h with
  | none => exact .ok ⟨rfl,hs⟩
  | @some b c hbc =>
    obtain ⟨hrow,hswaps,hresult⟩ := hbc.run hs
    simp only [change]
    generalize b.run l row = x at hrow hswaps hresult
    generalize c.run l row = y at hrow hresult
    obtain ⟨r,x⟩ := x
    obtain ⟨r',y⟩ := y
    cases hresult with
    | ok _ => exact .ok ⟨hrow,hswaps⟩
    | error he => exact .error he

/-- Failures of the same stage and sort. -/
def SameFailure (e e' : Stage × Script.Error) : Prop := e'.1 = e.1 ∧ e'.2.cause = e.2.cause

lemma inStage_matched {α : Type} {P : α → α → Prop} {x y : Except Script.Error α} (stage : Stage)
    (h : Matched (Script.Error.Alike K) P x y) :
    Matched SameFailure P (inStage stage x) (inStage stage y) := by
  cases h with
  | ok h => exact .ok h
  | error h => exact .error ⟨rfl,h.cause⟩

/-- Pipelines that are alike give the same for every row in which names stand for their
positions. -/
theorem processRow_alike {p q : Pipeline} (h : p.Alike K q) {l : Layout} {row : Row}
    (hs : row.Swaps K l) : Matched SameFailure Eq (processRow p l row) (processRow q l row) := by
  unfold processRow
  refine (inStage_matched .filter (meets_alike h.filter hs)).bind fun b b' hb => ?_
  subst hb
  split
  · exact .ok rfl
  refine (inStage_matched .statement (change_alike h.body hs)).bind fun r r' ⟨hr,hs'⟩ => ?_
  subst hr
  refine (inStage_matched .afterFilter (meets_alike h.afterFilter hs')).bind fun b b' hb => ?_
  subst hb
  split
  · exact .ok rfl
  have houtput : output q l r' = output p l r' := by
    simp only [output,h.projection]
  rw [houtput]
  exact matched_bind (fun _ => ⟨rfl,rfl⟩) _ fun _ => .ok rfl

end Stream

end

lemma Text.length_splitFrom_le (sep : Text) (skip : ℕ) (t : Text) :
    (splitFrom sep skip t).length ≤ t.length+1 := by
  have hcons : ∀ (b : UInt8) (ps : List Text), ps ≠ [] → (consFirst b ps).length = ps.length := by
    intro b ps hps
    obtain ⟨p,ps,rfl⟩ := List.exists_cons_of_ne_nil hps
    rfl
  induction t generalizing skip with
  | nil => cases skip <;> simp [splitFrom]
  | cons b t ih =>
    cases skip with
    | succ skip => exact (ih skip).trans (by simp)
    | zero =>
      rw [splitFrom]
      split
      · simpa using ih (sep.length-1)
      · rw [hcons b _ (splitFrom_ne_nil sep 0 t)]
        exact (ih 0).trans (by simp)

namespace Layout

lemma lastPosition?_eq_none {name : Text} {xs : List Text} (h : name ∉ xs) :
    lastPosition? name xs = none := by
  induction xs with
  | nil => rfl
  | cons x xs ih =>
    simp only [List.mem_cons,not_or] at h
    rw [lastPosition?,ih h.2]
    exact if_neg (Ne.symm h.1)

lemma lastPosition?_lt {name : Text} {xs : List Text} {i : ℕ}
    (h : lastPosition? name xs = some i) : i < xs.length := by
  induction xs generalizing i with
  | nil => simp [lastPosition?] at h
  | cons x xs ih =>
    rw [lastPosition?] at h
    cases hx : lastPosition? name xs with
    | some j =>
      simp only [hx,Option.some.injEq] at h
      have hj := ih hx
      simp only [List.length_cons]
      omega
    | none =>
      simp only [hx,Option.ite_none_right_eq_some,Option.some.injEq] at h
      simp [← h.2]

/-- A name of the header that is no extra column has its last position among the header cells. -/
lemma resolve_header {l : Layout} {names : List Text} (hl : l.header = some names) {name : Text}
    {i : ℕ} (h : lastPosition? name names = some i) (hx : name ∉ l.extra) (base : ℕ) :
    l.resolve base name = .ok i := by
  simp [resolve,position?,hl,lastPosition?_append,lastPosition?_eq_none hx,h]

end Layout

namespace Stream

/-- The names of extra columns can always be written into the header row. -/
lemma nameColumns_isOk {l : Layout} {names : List Text} (h : ∀ name ∈ names, name ∈ l.extra)
    (row : Row) : ∃ row', nameColumns l row names = .ok row' := by
  induction names generalizing row with
  | nil => exact ⟨row,rfl⟩
  | cons name names ih =>
    obtain ⟨p,hp,-⟩ := Layout.resolve_extra (h name (by simp)) row.base
    have hset : row.set l (.name name) (.str name) = .ok _ :=
      Row.set_of_writePosition (t := name) rfl hp
    obtain ⟨row',hrow⟩ := ih (fun x hx => h x (by simp [hx])) _
    refine ⟨row',?_⟩
    rw [nameColumns,List.foldlM_cons,hset]
    exact hrow

/-- The header line names the columns, whether it is printed or not. -/
lemma layout_header {p : Pipeline} {s : Stream} (hp : p.plan.options.hasHeader = true)
    (hs : s.line = 0) (hl : s.layout.header = none)
    (hx : ∀ name ∈ p.plan.newHeaders, name ∈ s.layout.extra) (header : Text) :
    (process p s header).1.layout =
      { s.layout with header := some (rowOf s.layout header).cells } := by
  have hregister : (rowOf s.layout header).register s.layout =
      .ok ({ s.layout with header := some (rowOf s.layout header).cells },
        { rowOf s.layout header with
          cells := (rowOf s.layout header).cells ++ s.layout.extra.map fun _ => [] }) := by
    have hbase : (rowOf s.layout header).cells.take (rowOf s.layout header).base =
        (rowOf s.layout header).cells := List.take_length
    rw [Row.register,hbase,Layout.register,hl]
    rfl
  obtain ⟨row,hrow⟩ := nameColumns_isOk
    (l := { s.layout with header := some (rowOf s.layout header).cells }) hx
    { rowOf s.layout header with
      cells := (rowOf s.layout header).cells ++ s.layout.extra.map fun _ => [] }
  have hheader : registerHeader p.plan s.layout (rowOf s.layout header) =
      .ok ({ s.layout with header := some (rowOf s.layout header).cells },row) := by
    rw [registerHeader,hregister]
    change (do return (_,← nameColumns _ _ _)) = _
    rw [hrow]
    rfl
  rw [process]
  simp only [hp,hs]
  change (processHeader p { s with line := 0+1 } header).1.layout = _
  rw [processHeader]
  simp only [hheader]
  split
  · rfl
  · split <;> rfl

def headed (p : Plan) (header : Text) : Layout :=
  { (fresh p).layout with header := some (rowOf (fresh p).layout header).cells }

/-- Of a stream that starts nothing has been read, whether it is the first one or not. -/
lemma layout_start {start : Plan → Stream} (hs : start = fresh ∨ start = next) (p : Plan) :
    (start p).layout = (fresh p).layout ∧ (start p).line = 0 := by
  rcases hs with rfl | rfl <;> exact ⟨rfl,rfl⟩

/-- After a header, a data line gives what its row gives under the columns of the header. -/
lemma verdict_after_header {p : Pipeline} (hp : p.plan.options.hasHeader = true)
    {start : Plan → Stream} (hs : start = fresh ∨ start = next) (header : Text)
    (before : List Text) (line : Text) :
    verdict (process p (advance p (start p.plan) (header::before)) line).2 =
      processRow p (headed p.plan header) (rowOf (fresh p.plan).layout line) := by
  have hlayout := layout_start hs p.plan
  have hextra : ∀ name ∈ p.plan.newHeaders, name ∈ (start p.plan).layout.extra := by
    rw [hlayout.1]
    exact fun _ h => h
  have hheader := layout_header hp hlayout.2 (by rw [hlayout.1]; rfl) hextra header
  rw [hlayout.1] at hheader
  have hverdict := verdict_process_advance (pastHeader_process p (start p.plan) header) before line
  rw [hheader] at hverdict
  exact hverdict

/-- Results of a line that come to the same: one outcome, or failures of one stage and sort. -/
def SameResult : Except Error Outcome → Except Error Outcome → Prop :=
  Matched (fun e e' => e'.stage = e.stage ∧ e'.cause.cause = e.cause.cause) Eq

lemma sameResult_of_verdict {x y : Except Error Outcome}
    (h : Matched SameFailure Eq (verdict x) (verdict y)) : SameResult x y := by
  cases x with
  | ok a =>
    cases y with
    | ok b =>
      cases h with
      | ok h => exact .ok h
    | error e => cases h
  | error e =>
    cases y with
    | ok b => cases h
    | error e' =>
      cases h with
      | error h => exact .error h

lemma lastPosition?_le_length {l : Layout} {header n : Text} {k : ℕ}
    (hk : Layout.lastPosition? n (rowOf l header).cells = some k) : k ≤ header.length := by
  have hcells := Layout.lastPosition?_lt hk
  have hline : (Text.dropEnding [Text.ascii '\r'] header).length ≤ header.length := by
    rw [Text.dropEnding]
    split
    · simp
    · rfl
  have hpieces : (rowOf l header).cells.length ≤ _ := Text.length_splitFrom_le _ _ _
  omega

/-- A column of the header that is no new column can be given by its name or by its position. With
the position in place of the name in every accessor, the plan is accepted as well, and it gives the
same for every data line that has the column, whatever lines came before. A position is written as a
word, so the header has to be shorter than any line that fills the memory of a machine. -/
theorem name_or_position {o : Options} {plan : Plan} {p : Pipeline}
    (hplan : Plan.ofOptions o = .ok plan) (hp : Pipeline.compile plan = .ok p)
    (hheader : o.hasHeader = true) (hquote : o.autoQuote = true)
    (hcode : ∀ code ∈ plan.codes, Bracketless code) {header n : Text} (hn : ColumnName n) {k : ℕ}
    (hk : Layout.lastPosition? n (rowOf (fresh plan).layout header).cells = some k)
    (hsize : header.length < 2^63) (hnew : n ∉ plan.newHeaders) :
    ∃ plan' p', Plan.ofOptions (o.positioned n k) = .ok plan' ∧ Pipeline.compile plan' = .ok p' ∧
      ∀ start, start = fresh ∨ start = next → ∀ before line,
        k < (rowOf (fresh plan).layout line).cells.length →
        SameResult (process p (advance p (start plan) (header::before)) line).2
          (process p' (advance p' (start plan') (header::before)) line).2 := by
  have hlt : k < 2^63 := (lastPosition?_le_length hk).trans_lt hsize
  obtain ⟨plan',hplan',hpp⟩ := Plan.ofOptions_positioned hn k hquote hplan
  obtain ⟨p',hp',halike⟩ := Pipeline.compile_positioned hn hlt hpp hcode hp
  refine ⟨plan',p',hplan',hp',?_⟩
  intro start hstart before line hline
  obtain rfl := (Pipeline.compile_eq_ok_iff.mp hp).1
  obtain rfl := (Pipeline.compile_eq_ok_iff.mp hp').1
  have hmode : p.plan.options.hasHeader = true := by
    obtain ⟨f,b,a,-,-,-,hplan⟩ := Plan.ofOptions_eq_ok hplan
    rw [hplan]
    exact hheader
  have hmode' : p'.plan.options.hasHeader = true := by
    rw [hpp.options]
    exact hmode
  have hfresh : (fresh p'.plan).layout = (fresh p.plan).layout := by
    simp only [fresh,hpp.newHeaders,hpp.options]
    rfl
  refine sameResult_of_verdict ?_
  rw [verdict_after_header hmode hstart,verdict_after_header hmode' hstart,headed,headed,hfresh]
  refine processRow_alike halike ?_
  rintro m i ⟨rfl,rfl⟩
  exact ⟨k,Layout.resolve_header rfl hk hnew _,Script.toInt_decimal hlt,hline⟩

/-- Next year's ages of those with a name who will be over forty. -/
def ages : Options where
  filter := Text.ofString "s[name] != \"\""
  statement := Text.ofString "i[age] += 1"
  afterFilter := Text.ofString "i[age] > 40"

def agesPlan : Plan where
  options := ages
  filter := some (Text.ofString "row.str[\"name\"]!=\"\"")
  body := some (Text.ofString "row[\"age\"] = row.int[\"age\"] + (1)")
  afterFilter := some (Text.ofString "row.int[\"age\"]>40")
  projection := []
  newHeaders := []

/-- The last of two columns with one name counts, and a line that failed before does not. -/
theorem name_or_position_ages :
    let lines := [Text.ofString "age,name,age",Text.ofString "1,Bo,?"]
    let line := Text.ofString "7,Ann,41"
    ages.positioned (Text.ofString "age") 2 =
      { ages with
        statement := Text.ofString "i[2] += 1"
        afterFilter := Text.ofString "i[2] > 40" } ∧
    ∃ p plan' p', Pipeline.compile agesPlan = .ok p ∧
      Plan.ofOptions (ages.positioned (Text.ofString "age") 2) = .ok plan' ∧
      Pipeline.compile plan' = .ok p' ∧
      (process p (advance p (fresh agesPlan) lines) line).2.toOption =
        some (.printed (Text.ofString "7,Ann,42")) ∧
      SameResult (process p (advance p (fresh agesPlan) lines) line).2
        (process p' (advance p' (fresh plan') lines) line).2 := by
  intro lines line
  obtain ⟨p,hp⟩ := Shorthand.exists_ok (x := Pipeline.compile agesPlan) (by decide +kernel)
  have hplan : Plan.ofOptions ages = .ok agesPlan := by decide +kernel
  have hname : ColumnName (Text.ofString "age") :=
    ⟨⟨by decide +kernel,by decide +kernel,by decide +kernel,by decide +kernel⟩,
      by decide +kernel,by decide +kernel,by decide +kernel⟩
  have hk : Layout.lastPosition? (Text.ofString "age")
      (rowOf (fresh agesPlan).layout (Text.ofString "age,name,age")).cells = some 2 := by
    decide +kernel
  obtain ⟨plan',p',hplan',hp',hsame⟩ := name_or_position hplan hp rfl rfl (by decide +kernel)
    hname hk (by decide +kernel) (by decide +kernel)
  have hprinted : (Pipeline.compile agesPlan).toOption.map (fun p =>
      (process p (advance p (fresh agesPlan) lines) line).2.toOption) =
      some (some (.printed (Text.ofString "7,Ann,42"))) := by decide +kernel
  rw [hp] at hprinted
  exact ⟨by decide +kernel,p,plan',p',hp,hplan',hp',Option.some.inj hprinted,
    hsame fresh (Or.inl rfl) [Text.ofString "1,Bo,?"] line (by decide +kernel)⟩

end Stream

end CellScript
