import Mathlib
import CellScript.Proofs.Script.Statement
import CellScript.Proofs.Script.Target
import CellScript.Proofs.Shorthand.Assignment
import CellScript.Proofs.Stream.HeaderLine

/-! New columns at work. Whatever a stream has seen before, on every data line the columns that a
statement creates can be written, and by its label such a column reads as the text that was stored
last. -/
namespace CellScript

open Script (PlainName Scope Spot Statement quoteWith)

namespace Script

/-- The key and the text that a statement stores, if it stores any. -/
def stored? (s : Scope) : Statement → Option (Key × Text)
  | .store _ key value =>
    match evalKey s key,eval s value with
    | .ok k,.ok v => v.text?.map (k,·)
    | _,_ => none
  | _ => none

/-- What statements store one after the other, up to the first failure. -/
def storedAll (s : Scope) : List Statement → List (Key × Text)
  | [] => []
  | st::rest =>
    match exec s st with
    | .ok s' => (stored? s st).toList ++ storedAll s' rest
    | .error _ => []

/-- A statement keeps the columns. It keeps the row as well, unless it stores: then the column reads
as the text. -/
lemma Executes.stored {s s' : Scope} {st : Statement} (h : Executes s st s') :
    s'.layout = s.layout ∧ (stored? s st = none → s'.row = s.row) ∧
      ∀ name t, stored? s st = some (.name name,t) → s'.row.get s.layout (.name name) = .ok t := by
  cases h with
  | eval _ => exact ⟨rfl,fun _ => rfl,by simp [stored?]⟩
  | bind _ => exact ⟨rfl,fun _ => rfl,by simp [stored?]⟩
  | @store view key value v w k row hv hw hk hrow =>
    obtain ⟨_,t,-,ht,-⟩ := Row.set_eq_ok_iff.mp hrow
    have hstored : stored? s (.store view key value) = some (k,t) := by simp [stored?,hv,hk,ht]
    rw [hstored]
    refine ⟨rfl,by simp,?_⟩
    intro name u hu
    simp only [Option.some.injEq,Prod.mk.injEq] at hu
    obtain ⟨rfl,rfl⟩ := hu
    exact Row.get_set ht hrow

/-- Statements that succeed keep the columns. They keep the row as well when they store nothing, and
otherwise a column that was stored last reads as its text. -/
theorem execAll_stored {s s' : Scope} {sts : List Statement} (h : execAll s sts = (s',.ok ())) :
    s'.layout = s.layout ∧ (storedAll s sts = [] → s'.row = s.row) ∧
      ∀ name t, (storedAll s sts).getLast? = some (.name name,t) →
        s'.row.get s.layout (.name name) = .ok t := by
  induction sts generalizing s with
  | nil =>
    obtain rfl : s = s' := congrArg Prod.fst h
    exact ⟨rfl,fun _ => rfl,by simp [storedAll]⟩
  | cons st rest ih =>
    obtain ⟨s₁,hst,h⟩ := execAll_cons_eq_ok h
    obtain ⟨hlayout,hkeep,hstore⟩ := (exec_eq_ok_iff.mp hst).stored
    obtain ⟨hlayout',hkeep',hstore'⟩ := ih h
    have hall : storedAll s (st::rest) = (stored? s st).toList ++ storedAll s₁ rest := by
      rw [storedAll,hst]
    rw [hall,hlayout',hlayout]
    refine ⟨rfl,?_,?_⟩
    · intro hnone
      obtain ⟨h1,h2⟩ := List.append_eq_nil_iff.mp hnone
      rw [hkeep' h2,hkeep (by simpa using h1)]
    · intro name t hlast
      rcases List.eq_nil_or_concat (storedAll s₁ rest) with hnone | ⟨more,x,hmore⟩
      · -- nothing is stored behind the first statement
        rw [hnone,List.append_nil] at hlast
        have hone : stored? s st = some (.name name,t) := by
          cases hx : stored? s st with
          | none => simp [hx] at hlast
          | some y => simpa [hx] using hlast
        rw [hkeep' hnone]
        exact hstore name t hone
      · rw [List.concat_eq_append] at hmore
        rw [List.getLast?_append_of_ne_nil _ (by simp [hmore])] at hlast
        exact hlayout ▸ hstore' name t hlast

/-- On a row a name reads as a text: wherever a script reads the cell of this name as it is, whatever
its variables are. -/
def ReadsAs (l : Layout) (row : Row) (name t : Text) : Prop :=
  ∀ vars view key, viewOf view = .ok .text → evalKey ⟨l,row,vars⟩ key = .ok (.name name) →
    eval ⟨l,row,vars⟩ (.cell view key) = .ok (.str t)

lemma readsAs_of_get {l : Layout} {row : Row} {name t : Text}
    (h : row.get l (.name name) = .ok t) : ReadsAs l row name t := by
  intro vars view key hview hkey
  simp only [eval,hview,hkey,bind,Except.bind,View.get,h,View.read,ofRow]

lemma cause_viewOf {view : Option Text} {e : Error} (h : viewOf view = .error e) :
    e.cause = .undefinedName := by
  cases view with
  | none => simp [viewOf] at h
  | some w =>
    simp only [viewOf] at h
    split_ifs at h
    obtain rfl := Except.error.inj h
    rfl

/-- A text can be stored in an extra column and then reads as it is. Only the view that is asked for
can be wrong, never the name. -/
lemma exec_store_extra {s : Scope} {name t : Text} (hname : name ∈ s.layout.extra)
    (view : Option Text) {key : Option Expr} {value : Expr} {v : Value}
    (hkey : evalKey s key = .ok (.name name)) (hvalue : eval s value = .ok v)
    (ht : v.text? = some t) :
    (∀ w, viewOf view = .ok w → ∃ s', exec s (.store view key value) = .ok s' ∧
      ReadsAs s.layout s'.row name t) ∧
    ∀ e, exec s (.store view key value) = .error e →
      e.cause ≠ .unknownHeader ∧ e.cause ≠ .namesDisabled := by
  obtain ⟨p,hp,-⟩ := Layout.resolve_extra hname s.row.base
  have hwrite : s.row.writePosition s.layout (.name name) = .ok p := hp
  obtain ⟨row,hset⟩ : ∃ row, s.row.set s.layout (.name name) v = .ok row :=
    ⟨_,Row.set_of_writePosition ht hwrite⟩
  cases hview : viewOf view with
  | error x =>
    have hexec : exec s (.store view key value) = .error x := by
      simp [exec,hvalue,hview,bind,Except.bind]
    refine ⟨by simp,?_⟩
    intro e he
    obtain rfl := Except.error.inj (hexec.symm.trans he)
    rw [cause_viewOf hview]
    exact ⟨by simp,by simp⟩
  | ok w =>
    have hexec : exec s (.store view key value) = .ok { s with row := row } := by
      simp only [exec,hvalue,hview,hkey,bind,Except.bind,hset,ofRow,pure,Except.pure]
    exact ⟨fun _ _ => ⟨_,hexec,readsAs_of_get (Row.get_set ht hset)⟩,by simp [hexec]⟩

/-- A cell with a name in quotes is a formula. -/
lemma Formula.compile_cell {view : Option Text} (hview : ∀ w ∈ view, IsName w) {name : Text}
    (hn : PlainName name) : Formula.compile (cellText view (quoteWith (Text.ascii '"') name)) =
      .ok ⟨cellText view (quoteWith (Text.ascii '"') name),.cell view (some (.string name))⟩ :=
  Formula.compile_keyed (keySpelled_quoted (by decide) hn) hview

end Script

/-- A field by its name has the text of the column as its value, where it is read as it is. -/
lemma Shorthand.Field.value_read {name : Text} (hn : PlainName name) {l : Layout} {row : Row}
    {t : Text} (h : Script.ReadsAs l row name t) {cast : Cast} (hcast : cast.rowView = .text) :
    ∃ f, Script.Formula.compile (read ⟨cast,quoteWith (Text.ascii '"') name⟩) = .ok f ∧
      f.value l row = .ok (.str t) := by
  have hcell := Script.Formula.compile_cell (Assignment.isName_view cast) hn
  rw [← read_eq ⟨cast,quoteWith (Text.ascii '"') name⟩] at hcell
  exact ⟨_,hcell,h [] _ _ (by rw [Assignment.viewOf_viewName,hcast]) rfl⟩

namespace Stream

lemma extra_register {l l' : Layout} {row row' : Row} (h : row.register l = .ok (l',row')) :
    l'.extra = l.extra := by
  rw [Row.register,Layout.register] at h
  cases hh : l.header with
  | some names => simp [hh,bind,Except.bind] at h
  | none =>
    simp only [hh,bind,Except.bind,pure,Except.pure,Except.ok.injEq,Prod.mk.injEq] at h
    rw [← h.1]

lemma extra_registerHeader {p : Plan} {l l' : Layout} {row row' : Row}
    (h : registerHeader p l row = .ok (l',row')) : l'.extra = l.extra := by
  simp only [registerHeader,bind_eq_ok_iff] at h
  obtain ⟨⟨l₁,row₁⟩,hr,row₂,-,h⟩ := h
  rw [← (Prod.mk.inj (Except.ok.inj h)).1,extra_register hr]

/-- A line keeps the new columns, whatever comes of it. -/
lemma extra_process (p : Pipeline) (s : Stream) (raw : Text) :
    (process p s raw).1.layout.extra = s.layout.extra := by
  rw [process]
  dsimp only
  split
  · rw [processHeader]
    split
    · rfl
    · rename_i layout row h
      dsimp only
      have hextra : layout.extra = s.layout.extra := extra_registerHeader h
      split
      · exact hextra
      · split <;> exact hextra
  · split <;> rfl

lemma extra_runLines (p : Pipeline) (s : Stream) (ls : List Text) :
    (runLines p s ls).stream.layout.extra = s.layout.extra := by
  induction ls generalizing s with
  | nil => rfl
  | cons raw rest ih =>
    have hline := extra_process p s raw
    rw [runLines]
    rcases hp : process p s raw with ⟨s',error | outcome⟩
    · rw [hp] at hline
      exact hline
    · rw [hp] at hline
      exact (ih s').trans hline

lemma extra_step {p : Pipeline} {s : Stream} (h : s.layout.extra = p.plan.newHeaders) (x : Step) :
    (step p s x).1.layout.extra = p.plan.newHeaders := by
  cases x with
  | run cancelled input =>
    rw [← h]
    change (run p cancelled s input).stream.layout.extra = _
    rw [run]
    split
    · rfl
    · split
      · rfl
      · exact extra_runLines p s _
  | process raw => exact (extra_process p s raw).trans h
  | reset => rfl
  | nextStream => rfl

/-- Whatever a session has done, its stream has the new columns of its plan. -/
theorem extra_session {p : Pipeline} {s : Stream} (h : s.layout.extra = p.plan.newHeaders)
    (xs : List Step) : (session p s xs).1.layout.extra = p.plan.newHeaders := by
  induction xs generalizing s with
  | nil => exact h
  | cons x xs ih => exact ih (extra_step h x)

/-- The work on a row once its statement has run. -/
def finishRow (p : Pipeline) (layout : Layout) (row : Row) :
    Except (Stage × Script.Error) Outcome := do
  if !(← inStage .afterFilter (meets p.afterFilter layout row)) then return .dropped .afterFilter
  return .printed (← inStage .select (output p layout row))

lemma processRow_eq_finishRow {p : Pipeline} {l : Layout} {row row' : Row}
    (hf : meets p.filter l row = .ok true) (hc : change p.body l row = .ok row') :
    processRow p l row = finishRow p l row' := by
  rw [processRow,hf,hc]
  rfl

/-- A source with an accessor for a new column is not blank. -/
lemma not_blankOnly_of_appends {quoting : Bool} {src front label : Text}
    (h : Shorthand.Appends quoting src front label) : Text.blankOnly src = false := by
  obtain ⟨ts,t,u,us,-,cast,own,hscan,-,-,-,-,hc,-⟩ := h
  obtain ⟨body,hs,-⟩ := Shorthand.Token.newColumn_eq_ok hc
  have hsub := (Shorthand.cut_scan src).lexeme_subset t (by simp [hscan])
  obtain ⟨letter,hletter,hmem⟩ : ∃ letter, (Shorthand.Cast.ofLetter? letter).isSome ∧
      letter ∈ t.lexeme := by
    obtain ⟨k,lexeme,pos⟩ := t
    cases lexeme with
    | nil => simp [Shorthand.Token.split] at hs
    | cons letter rest =>
      refine ⟨letter,?_,by simp⟩
      cases hl : Shorthand.Cast.ofLetter? letter with
      | none => simp [Shorthand.Token.split,hl] at hs
      | some c => rfl
  have hvisible : ∀ b : UInt8, (Shorthand.Cast.ofLetter? b).isSome → Text.IsVisible b := by
    decide +kernel
  exact Text.not_blankOnly_of_mem (hvisible letter hletter) (hsub hmem)

/-- Where an accessor for a new column is assigned to among code, the program stores under its
label. -/
lemma store_of_appends {o : Options} {plan : Plan} {p : Pipeline}
    (hplan : Plan.ofOptions o = .ok plan) (hp : Pipeline.compile plan = .ok p)
    (hlabels : ∀ label ∈ plan.newHeaders, PlainName label) {front label : Text}
    (h : Shorthand.Appends o.autoQuote o.statement front label) :
    label ∈ plan.newHeaders ∧ ∃ program, p.body = some program ∧
      (Spot.code.after front = .code → program.StoresBehind front label) := by
  obtain ⟨-,-,hprogram,-,-⟩ := Pipeline.compile_eq_ok_iff.mp hp
  obtain ⟨x,hx,hcode,hnew⟩ := (Plan.newHeaders_ofOptions hplan).resolve_left
    (by simp [not_blankOnly_of_appends h])
  obtain ⟨hlabel,back,hback⟩ := Shorthand.expand_appends hx h
  rw [← hnew] at hlabel
  rw [hcode,Pipeline.program?] at hprogram
  cases hc : Script.Program.compile x.code with
  | error e => simp [hc,Pipeline.inStage,Except.map] at hprogram
  | ok program =>
    simp only [hc,Pipeline.inStage,Except.map,Except.ok.injEq] at hprogram
    exact ⟨hlabel,program,hprogram.symm,
      Script.Program.store_of_cell (hlabels label hlabel) hc hback⟩

/-- Once all statements have run on a data line, the row that they leave is filtered and printed. -/
lemma verdict_of_execAll {p : Pipeline} {s : Stream} (hpast : PastHeader p s) {raw : Text}
    {program : Script.Program} (hbody : p.body = some program) {scope : Scope}
    (hrun : Script.execAll ⟨s.layout,rowOf s.layout raw,[]⟩ program.statements = (scope,.ok ()))
    (hfilter : meets p.filter s.layout (rowOf s.layout raw) = .ok true) :
    verdict (process p s raw).2 = finishRow p s.layout scope.row := by
  have hchange : change p.body s.layout (rowOf s.layout raw) = .ok scope.row := by
    simp only [change,hbody,Script.Program.run,hrun]
  rw [verdict_process hpast]
  exact processRow_eq_finishRow hfilter hchange

/-- New columns exist when lines are worked on. Every accessor for a new column that is assigned to
among code is a statement that stores under its label. Whatever a session has done before, on every
data line such a store of a value that has a text succeeds, or it asks for a view that there is not.
After statements of which the last one to store has stored under the label, the label reads as the
stored text: in the statements that follow, in the after-filter and in the selection. -/
theorem new_columns_exist {o : Options} {plan : Plan} {p : Pipeline}
    (hplan : Plan.ofOptions o = .ok plan) (hp : Pipeline.compile plan = .ok p)
    (hlabels : ∀ label ∈ plan.newHeaders, label.isUtf8 = true ∧ Text.ascii '\\' ∉ label) :
    (∀ front label, Shorthand.Appends o.autoQuote o.statement front label →
      label ∈ plan.newHeaders ∧ ∃ program, p.body = some program ∧
        (Spot.code.after front = .code → program.StoresBehind front label)) ∧
    ∀ past raw, let s := (session p (fresh plan) past).1
      let start : Scope := ⟨s.layout,rowOf s.layout raw,[]⟩
      PastHeader p s → ∀ program, p.body = some program → ∀ done rest scope,
        program.statements = done ++ rest → Script.execAll start done = (scope,.ok ()) →
        scope.layout = s.layout ∧
        (rest = [] → meets p.filter s.layout start.row = .ok true →
          verdict (process p s raw).2 = finishRow p s.layout scope.row) ∧
        ∀ label ∈ plan.newHeaders,
          (∀ view key value v t, Script.evalKey scope key = .ok (.name label) →
            Script.eval scope value = .ok v → v.text? = some t →
            (∀ w, Script.viewOf view = .ok w →
              ∃ scope', Script.exec scope (.store view key value) = .ok scope' ∧
                Script.ReadsAs s.layout scope'.row label t) ∧
            ∀ e, Script.exec scope (.store view key value) = .error e →
              e.cause ≠ .unknownHeader ∧ e.cause ≠ .namesDisabled) ∧
          ∀ t, (Script.storedAll start done).getLast? = some (.name label,t) →
            Script.ReadsAs s.layout scope.row label t ∧
            ∀ cast, cast.rowView = .text → ∃ f,
              Script.Formula.compile
                (Shorthand.Field.read ⟨cast,quoteWith (Text.ascii '"') label⟩) = .ok f ∧
              f.value s.layout scope.row = .ok (.str t) := by
  have hplain : ∀ label ∈ plan.newHeaders, PlainName label := by
    intro label hlabel
    have hl := Plan.isLabel_newHeaders hplan label hlabel
    exact ⟨(hlabels label hlabel).1,hl.quote,(hlabels label hlabel).2,hl.bracket⟩
  refine ⟨fun front label h => store_of_appends hplan hp hplain h,?_⟩
  intro past raw s start hpast program hbody done rest scope hsplit hrun
  obtain rfl := (Pipeline.compile_eq_ok_iff.mp hp).1
  have hextra : s.layout.extra = p.plan.newHeaders := extra_session rfl past
  obtain ⟨hlayout,-,hread⟩ := Script.execAll_stored hrun
  refine ⟨hlayout,?_,?_⟩
  · rintro rfl hfilter
    rw [List.append_nil] at hsplit
    exact verdict_of_execAll hpast hbody (hsplit ▸ hrun) hfilter
  · intro label hlabel
    refine ⟨?_,?_⟩
    · intro view key value v t hkey hvalue ht
      have hname : label ∈ scope.layout.extra := by rwa [hlayout,hextra]
      rw [show s.layout = scope.layout from hlayout.symm]
      exact Script.exec_store_extra hname view hkey hvalue ht
    · intro t hlast
      have hreads := Script.readsAs_of_get (hread label t hlast)
      exact ⟨hreads,fun cast hcast =>
        Shorthand.Field.value_read (hplain label hlabel) hreads hcast⟩

/-- A new column, and another one that is read off it and has no label of its own. -/
def copied : Pipeline where
  plan := ⟨{ statement := Text.ofString "s[+n] = 7; s[+] = s[n]" },none,
    some (Text.ofString "row[\"n\"] = 7;row[\"_2\"] = row.str[\"n\"]"),none,[],
    [Text.ofString "n",Text.ofString "_2"]⟩
  filter := none
  body := some ⟨Text.ofString "row[\"n\"] = 7;row[\"_2\"] = row.str[\"n\"]",
    [.store none (some (.string (Text.ofString "n"))) (.int 7),
      .store none (some (.string (Text.ofString "_2")))
        (.cell (some (Text.ofString "str")) (some (.string (Text.ofString "n"))))]⟩
  afterFilter := none
  projection := []

lemma copied_appends : Shorthand.Appends true copied.plan.options.statement
    (Text.ofString "row[\"n\"] = 7;") (Text.ofString "_2") := by
  refine ⟨[⟨.append,Text.ofString "s[+n]",0⟩,⟨.assignment,Text.ofString "=",6⟩,
    ⟨.passthrough,Text.ofString "7",8⟩,⟨.separator,Text.ofString ";",9⟩],
    ⟨.append,Text.ofString "s[+]",11⟩,⟨.assignment,Text.ofString "=",16⟩,
    [⟨.ambiguous,Text.ofString "s[n]",18⟩],
    ⟨none,true,false,[Text.ofString "row[\"n\"] = ",Text.ofString "7",Text.ofString ";"],
      [Text.ofString "n"]⟩,.toText,[],?_,?_,rfl,rfl,rfl,?_,?_,?_⟩
  · decide +kernel
  · rfl
  · decide +kernel
  · decide +kernel
  · decide +kernel

set_option maxRecDepth 4000 in
/-- In a second stream, on a line that is shorter than a header with a column of the same name. -/
theorem new_columns_exist_copied :
    let past := [.process (Text.ofString "a"),.process (Text.ofString "1"),.nextStream,
      .process (Text.ofString "b,n")]
    let s := (session copied (fresh copied.plan) past).1
    let start : Scope := ⟨s.layout,rowOf s.layout (Text.ofString "5"),[]⟩
    let first : Statement := .store none (some (.string (Text.ofString "n"))) (.int 7)
    Plan.ofOptions copied.plan.options = .ok copied.plan ∧
    Pipeline.compile copied.plan = .ok copied ∧
    (∀ label ∈ copied.plan.newHeaders, label.isUtf8 = true ∧ Text.ascii '\\' ∉ label) ∧
    (∃ program, copied.body = some program ∧
      program.StoresBehind (Text.ofString "row[\"n\"] = 7;") (Text.ofString "_2")) ∧
    PastHeader copied s ∧
    ∃ scope, Script.execAll start [first] = (scope,.ok ()) ∧
      Script.storedAll start [first] = [(.name (Text.ofString "n"),Text.ofString "7")] ∧
      Script.ReadsAs s.layout scope.row (Text.ofString "n") (Text.ofString "7") ∧
      (process copied s (Text.ofString "5")).2 = .ok (.printed (Text.ofString "5,,7,7")) := by
  intro past s start first
  have hplan : Plan.ofOptions copied.plan.options = .ok copied.plan := by decide +kernel
  have hp : Pipeline.compile copied.plan = .ok copied := rfl
  have hlabels : ∀ label ∈ copied.plan.newHeaders,
      label.isUtf8 = true ∧ Text.ascii '\\' ∉ label := by decide +kernel
  obtain ⟨hstores,hlines⟩ := new_columns_exist hplan hp hlabels
  obtain ⟨-,program,hbody,hstore⟩ := hstores _ _ copied_appends
  have hbehind := hstore (by decide +kernel)
  have hpast : PastHeader copied s := fun _ => by decide +kernel
  have hrun : Script.execAll start [first] = ((Script.execAll start [first]).1,.ok ()) :=
    Prod.ext rfl (by decide +kernel)
  have hstored : Script.storedAll start [first] = [(.name (Text.ofString "n"),Text.ofString "7")] := by
    decide +kernel
  have hprinted : (process copied s (Text.ofString "5")).2 =
      .ok (.printed (Text.ofString "5,,7,7")) := by decide +kernel
  obtain ⟨-,-,hcolumns⟩ := hlines past _ hpast _ rfl [first] _ _ rfl hrun
  obtain ⟨-,hread⟩ := hcolumns (Text.ofString "n") (by decide +kernel)
  obtain ⟨hreads,-⟩ := hread (Text.ofString "7") (by rw [hstored]; rfl)
  exact ⟨hplan,hp,hlabels,⟨program,hbody,hbehind⟩,hpast,_,hrun,hstored,hreads,hprinted⟩

end Stream

end CellScript
