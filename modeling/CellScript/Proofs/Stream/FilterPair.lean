import Mathlib
import CellScript.Proofs.Shorthand.Assignment
import CellScript.Proofs.Shorthand.Group
import CellScript.Proofs.Stream.NamedAccess

/-! Filters that follow each other. Without a statement between them, a filter and an after-filter
keep the lines that their conjunction keeps, and they fail where it fails. -/
namespace CellScript

open Script (Bracketless)
open Shorthand (conjunction unplaced)

lemma Pipeline.formula?_eq_ok_iff {stage : Stage} {code : Text} {x : Option Script.Formula} :
    formula? stage (some code) = .ok x ↔ ∃ f, Script.Formula.compile code = .ok f ∧ x = some f := by
  rw [formula?]
  cases Script.Formula.compile code with
  | error e => simp [inStage,Except.map]
  | ok f => simp [inStage,Except.map,eq_comm]

lemma not_blankOnly_conjunction (p q : Text) : Text.blankOnly (conjunction p q) = false := by
  have hparen : Text.ascii '(' ∈ conjunction p q := List.mem_append_left _ (by decide)
  exact Text.not_blankOnly_of_mem (by decide) hparen

/-- A pipeline in which the two filters of another one are one filter. -/
structure Pipeline.Joins (p q : Pipeline) : Prop where
  options : ∃ filter after, q.plan.options =
    { p.plan.options with filter := filter, afterFilter := after }
  newHeaders : q.plan.newHeaders = p.plan.newHeaders
  body : p.body = none
  body' : q.body = none
  filter : ∀ l row, Matched (Script.Error.Alike fun _ _ => False) Eq
    (do if ← Stream.meets p.filter l row then Stream.meets p.afterFilter l row else return false)
    (Stream.meets q.filter l row)
  afterFilter : q.afterFilter = none
  projection : q.projection = p.projection

/-- A filter and an after-filter that are accepted each on their own are accepted together. Their
conjunction is accepted as the only filter, and it joins them. -/
theorem Pipeline.exists_joins {o : Options} (ho : Text.blankOnly o.statement = true) {p q : Text}
    (hp : Text.blankOnly p = false) (hq : Text.blankOnly q = false) {plan plan' : Plan}
    {first second : Pipeline}
    (hplan : Plan.ofOptions { o with filter := p, afterFilter := [] } = .ok plan)
    (hfirst : Pipeline.compile plan = .ok first)
    (hplan' : Plan.ofOptions { o with filter := [], afterFilter := q } = .ok plan')
    (hsecond : Pipeline.compile plan' = .ok second)
    (hcode : ∀ code ∈ plan.codes ++ plan'.codes, Bracketless code) :
    ∃ x y : Pipeline, Plan.ofOptions { o with filter := p, afterFilter := q } = .ok x.plan ∧
      Pipeline.compile x.plan = .ok x ∧
      Plan.ofOptions { o with filter := conjunction p q, afterFilter := [] } = .ok y.plan ∧
      Pipeline.compile y.plan = .ok y ∧ x.Joins y := by
  obtain ⟨f,b,a,hf,hb,-,rfl⟩ := Plan.ofOptions_eq_ok hplan
  obtain ⟨f',b',a',-,-,ha,rfl⟩ := Plan.ofOptions_eq_ok hplan'
  obtain rfl : none = b := Except.ok.inj ((Plan.stage?_of_blank ho _ _ _).symm.trans hb)
  obtain ⟨x,hx,rfl⟩ := (Plan.stage?_eq_ok_iff hp).mp hf
  obtain ⟨y,hy,rfl⟩ := (Plan.stage?_eq_ok_iff hq).mp ha
  obtain ⟨-,hfilter,-,-,hselect⟩ := Pipeline.compile_eq_ok_iff.mp hfirst
  obtain ⟨-,-,-,hafter,-⟩ := Pipeline.compile_eq_ok_iff.mp hsecond
  obtain ⟨f,hxf,-⟩ := Pipeline.formula?_eq_ok_iff.mp hfilter
  obtain ⟨g,hyg,-⟩ := Pipeline.formula?_eq_ok_iff.mp hafter
  obtain ⟨e,e',he,he',hjoint⟩ := Script.compile_conjunction hxf hyg
  have hexpand := Shorthand.expand_conjunction hx hy
    (Shorthand.tidy_of_compile hxf (hcode _ (by simp [Plan.codes])))
    (Shorthand.tidy_of_compile hyg (hcode _ (by simp [Plan.codes])))
  have hstage : Plan.stage? .filter .filter o.autoQuote (conjunction p q) = .ok _ :=
    (Plan.stage?_eq_ok_iff (not_blankOnly_conjunction p q)).mpr ⟨_,hexpand,rfl⟩
  have hnone : Plan.stage? .afterFilter .filter o.autoQuote [] = .ok none := rfl
  refine ⟨⟨_,some f,none,some g,first.projection⟩,
    ⟨_,some ⟨Script.conjunctionCode x.code y.code,.and (.paren e) (.paren e')⟩,none,none,
      first.projection⟩,
    Plan.ofOptions_of_stages hf hb ha,Pipeline.compile_eq_ok_iff.mpr ⟨rfl,?_,rfl,?_,hselect⟩,
    Plan.ofOptions_of_stages hstage hb hnone,
    Pipeline.compile_eq_ok_iff.mpr ⟨rfl,?_,rfl,rfl,hselect⟩,?_⟩
  · exact Pipeline.formula?_eq_ok_iff.mpr ⟨f,hxf,rfl⟩
  · exact Pipeline.formula?_eq_ok_iff.mpr ⟨g,hyg,rfl⟩
  · exact Pipeline.formula?_eq_ok_iff.mpr ⟨_,hjoint,rfl⟩
  · exact ⟨⟨_,_,rfl⟩,rfl,rfl,rfl,Script.holds_conjunction he he' _,rfl,rfl⟩

namespace Stream

variable {p q : Pipeline}

/-- The same failure but for the place of a name. A failure of the after-filter may be one of the
filter instead. -/
structure Error.Agrees (e e' : Error) : Prop where
  line : e'.line = e.line
  stage : e'.stage = e.stage ∨ e.stage = .afterFilter ∧ e'.stage = .filter
  kind : e'.cause.cause = e.cause.cause
  cause : unplaced e'.cause = unplaced e.cause

def Stop.Agrees : Stop → Stop → Prop
  | .line e,.line e' => e.Agrees e'
  | .cancelled,.cancelled => True
  | .tooLong,.tooLong => True
  | _,_ => False

/-- Runs that reach the same state and print the same, and that stop alike if they do. -/
structure Run.Agrees (r r' : Run) : Prop where
  stream : r'.stream = r.stream
  printed : r'.printed = r.printed
  stop : Option.Rel Stop.Agrees r.stop r'.stop

def AgreesInStage (e e' : Stage × Script.Error) : Prop :=
  (e'.1 = e.1 ∨ e.1 = .afterFilter ∧ e'.1 = .filter) ∧ e.2.Alike (fun _ _ => False) e'.2

lemma agreesInStage_refl (e : Stage × Script.Error) : AgreesInStage e e := ⟨Or.inl rfl,.same _⟩

lemma output_joins (h : p.Joins q) (l : Layout) (row : Row) : output q l row = output p l row := by
  simp only [output,h.projection]

/-- Without a statement both filters see the same row. -/
lemma processRow_of_body (h : p.body = none) (l : Layout) (row : Row) : processRow p l row = (do
    if !(← inStage .filter (meets p.filter l row)) then return .dropped .filter
    if !(← inStage .afterFilter (meets p.afterFilter l row)) then return .dropped .afterFilter
    return .printed (← inStage .select (output p l row))) := by
  rw [processRow,h]
  rfl

/-- A row is kept or not, whether it has to pass one filter or two. -/
theorem processRow_joins (h : p.Joins q) (l : Layout) (row : Row) :
    Matched AgreesInStage (fun o o' => o'.text? = o.text?) (processRow p l row)
      (processRow q l row) := by
  have hfilter := h.filter l row
  rw [processRow_of_body h.body,processRow_of_body h.body',h.afterFilter,output_joins h]
  generalize meets p.filter l row = x at hfilter ⊢
  generalize meets q.filter l row = y at hfilter ⊢
  rcases x with e | b
  · change Matched _ _ (.error e) y at hfilter
    cases hfilter with
    | error he => exact .error ⟨Or.inl rfl,he⟩
  cases b with
  | false =>
    change Matched _ _ (.ok false) y at hfilter
    cases hfilter with
    | ok hb =>
      subst hb
      exact .ok rfl
  | true =>
    change Matched _ _ (meets p.afterFilter l row) y at hfilter
    generalize meets p.afterFilter l row = x at hfilter ⊢
    cases hfilter with
    | error he => exact .error ⟨Or.inr ⟨rfl,rfl⟩,he⟩
    | @ok b b' hb =>
      subst hb
      cases b with
      | false => exact .ok rfl
      | true => exact matched_refl agreesInStage_refl (fun o => Eq.refl o.text?) _

lemma processHeader_joins (h : p.Joins q) (s : Stream) (raw : Text) :
    processHeader q s raw = processHeader p s raw := by
  obtain ⟨filter,after,hoptions⟩ := h.options
  simp only [processHeader,registerHeader,h.newHeaders,output_joins h,hoptions]

lemma Error.agrees_refl (e : Error) : e.Agrees e := ⟨rfl,Or.inl rfl,rfl,rfl⟩

/-- The work on a line reaches the same state, and its results agree. -/
lemma process_joins (h : p.Joins q) (s : Stream) (raw : Text) :
    (process q s raw).1 = (process p s raw).1 ∧
      Matched Error.Agrees (fun o o' => o'.text? = o.text?) (process p s raw).2
        (process q s raw).2 := by
  obtain ⟨filter,after,hoptions⟩ := h.options
  rw [process,process,processHeader_joins h,hoptions]
  split
  · exact ⟨rfl,matched_refl Error.agrees_refl (fun o => Eq.refl o.text?) _⟩
  · have hrow := processRow_joins h s.layout (rowOf s.layout raw)
    generalize processRow p s.layout (rowOf s.layout raw) = x at hrow
    generalize processRow q s.layout (rowOf s.layout raw) = y at hrow
    cases hrow with
    | ok htext => exact ⟨rfl,.ok htext⟩
    | error he => exact ⟨rfl,.error ⟨rfl,he.1,he.2.cause,Shorthand.unplaced_of_alike he.2⟩⟩

lemma runLines_joins (h : p.Joins q) (s : Stream) (ls : List Text) :
    (runLines p s ls).Agrees (runLines q s ls) := by
  induction ls generalizing s with
  | nil => exact ⟨rfl,rfl,.none⟩
  | cons raw ls ih =>
    obtain ⟨hstate,hresult⟩ := process_joins h s raw
    rw [runLines,runLines]
    generalize process p s raw = x at hstate hresult
    generalize process q s raw = y at hstate hresult
    obtain ⟨s,x⟩ := x
    obtain ⟨t,y⟩ := y
    obtain rfl : t = s := hstate
    cases hresult with
    | error he => exact ⟨rfl,rfl,.some he⟩
    | @ok o o' htext =>
      have hprint : o'.print = o.print := by rw [Outcome.print,Outcome.print,htext]
      obtain ⟨hstream,hprinted,hstop⟩ := ih t
      exact ⟨hstream,congrArg₂ (· ++ ·) hprint hprinted,hstop⟩

/-- The new columns and the delimiter do not depend on the filters. -/
lemma start_joins (h : p.Joins q) {start : Plan → Stream} (hs : start = fresh ∨ start = next) :
    start q.plan = start p.plan := by
  obtain ⟨filter,after,hoptions⟩ := h.options
  have hfresh : fresh q.plan = fresh p.plan := by
    rw [fresh,fresh,h.newHeaders,hoptions]
    rfl
  rcases hs with rfl | rfl
  · exact hfresh
  · rw [next,next,hfresh]

lemma readStop_agrees (input : Text) :
    Option.Rel Stop.Agrees (readStop input) (readStop input) := by
  rw [readStop]
  split
  · exact .none
  · exact .some trivial

/-- Runs that agree still do when both go on to the end of what is read. -/
lemma Run.Agrees.andThen {r r' : Run} (h : r.Agrees r') (input : Text) :
    (r.andThen fun t => ⟨t,[],readStop input⟩).Agrees
      (r'.andThen fun t => ⟨t,[],readStop input⟩) := by
  obtain ⟨hstream,hprinted,hstop⟩ := h
  rw [Run.andThen,Run.andThen]
  generalize hr : r.stop = x at hstop ⊢
  generalize hr' : r'.stop = y at hstop ⊢
  cases hstop with
  | none => exact ⟨hstream,congrArg (· ++ []) hprinted,readStop_agrees input⟩
  | some hagrees => exact ⟨hstream,hprinted,by rw [hr,hr']; exact .some hagrees⟩

/-- Two filters in a row and one filter for both give runs that agree. -/
theorem run_joins (h : p.Joins q) (cancelled : Bool) (s : Stream) (input : Text) :
    (run p cancelled s input).Agrees (run q cancelled s input) := by
  cases cancelled with
  | true =>
    rw [run_cancelled,run_cancelled]
    refine ⟨rfl,rfl,?_⟩
    dsimp only
    split
    · exact readStop_agrees input
    · exact .some trivial
  | false =>
    rw [run_uncancelled,run_uncancelled]
    exact (runLines_joins h s _).andThen input

/-- Filters compose. Without a statement, a filter and an after-filter that are accepted each on
their own are accepted together, and so is their conjunction as the only filter. On every input both
plans print the same and fail on the same line for the same reason. -/
theorem filters_compose {o : Options} (ho : Text.blankOnly o.statement = true) {p q : Text}
    (hp : Text.blankOnly p = false) (hq : Text.blankOnly q = false) {plan plan' : Plan}
    {first second : Pipeline}
    (hplan : Plan.ofOptions { o with filter := p, afterFilter := [] } = .ok plan)
    (hfirst : Pipeline.compile plan = .ok first)
    (hplan' : Plan.ofOptions { o with filter := [], afterFilter := q } = .ok plan')
    (hsecond : Pipeline.compile plan' = .ok second)
    (hcode : ∀ code ∈ plan.codes ++ plan'.codes, Bracketless code) :
    ∃ pair joint x y, Plan.ofOptions { o with filter := p, afterFilter := q } = .ok pair ∧
      Pipeline.compile pair = .ok x ∧
      Plan.ofOptions { o with filter := conjunction p q, afterFilter := [] } = .ok joint ∧
      Pipeline.compile joint = .ok y ∧
      ∀ start, start = fresh ∨ start = next → ∀ cancelled input,
        (run x cancelled (start pair) input).Agrees (run y cancelled (start joint) input) := by
  obtain ⟨x,y,hpair,hx,hjoint,hy,hjoins⟩ :=
    Pipeline.exists_joins ho hp hq hplan hfirst hplan' hsecond hcode
  refine ⟨_,_,x,y,hpair,hx,hjoint,hy,?_⟩
  intro start hstart cancelled input
  rw [start_joins hjoins hstart]
  exact run_joins hjoins cancelled _ input

def positive : Text := Text.ofString "i[a] > 0"

/-- Holds of every number but two, by whose distance from itself nothing can be divided. -/
def divisible : Text := Text.ofString "10 % (i[a] - 2) >= 0"

def pairedPlan : Plan where
  options := { filter := positive, afterFilter := divisible }
  filter := some (Text.ofString "row.int[\"a\"]>0")
  body := none
  afterFilter := some (Text.ofString "10%(row.int[\"a\"]-2)>=0")
  projection := []
  newHeaders := []

/-- One line is dropped, the next one is printed, and the last one fails in the second condition. -/
theorem filters_compose_divided :
    let input := Text.ofString "a,b\n0,x\n3,y\n2,z\n"
    conjunction positive divisible = Text.ofString "(i[a] > 0) and (10 % (i[a] - 2) >= 0)" ∧
    ∃ joint x y, Plan.ofOptions { filter := positive, afterFilter := divisible } = .ok pairedPlan ∧
      Pipeline.compile pairedPlan = .ok x ∧
      Plan.ofOptions { filter := conjunction positive divisible } = .ok joint ∧
      Pipeline.compile joint = .ok y ∧
      (run x false (fresh pairedPlan) input).printed = Text.ofString "a,b\n3,y\n" ∧
      (run x false (fresh pairedPlan) input).stop =
        some (.line ⟨4,.afterFilter,.operands .zeroDivisor⟩) ∧
      (run x false (fresh pairedPlan) input).Agrees (run y false (fresh joint) input) := by
  intro input
  have hcode : ∀ code ∈ ({ pairedPlan with afterFilter := none } : Plan).codes ++
      ({ pairedPlan with filter := none } : Plan).codes, Bracketless code := by decide +kernel
  obtain ⟨first,hfirst⟩ := Shorthand.exists_ok (x := Pipeline.compile
    { pairedPlan with
      options := { filter := positive }
      afterFilter := none }) (by decide +kernel)
  obtain ⟨second,hsecond⟩ := Shorthand.exists_ok (x := Pipeline.compile
    { pairedPlan with
      options := { afterFilter := divisible }
      filter := none }) (by decide +kernel)
  have hruns : (Pipeline.compile pairedPlan).toOption.map (fun x =>
      ((run x false (fresh pairedPlan) input).printed,(run x false (fresh pairedPlan) input).stop)) =
      some (Text.ofString "a,b\n3,y\n",some (.line ⟨4,.afterFilter,.operands .zeroDivisor⟩)) := by
    decide +kernel
  obtain ⟨pair,joint,x,y,hpair,hx,hjoint,hy,hagrees⟩ :=
    filters_compose (o := {}) (p := positive) (q := divisible) (by decide) (by decide +kernel)
      (by decide +kernel) (by decide +kernel) hfirst (by decide +kernel) hsecond hcode
  have hplan : Plan.ofOptions { filter := positive, afterFilter := divisible } = .ok pairedPlan := by
    decide +kernel
  obtain rfl : pairedPlan = pair := Except.ok.inj (hplan.symm.trans hpair)
  rw [hx] at hruns
  obtain ⟨hprinted,hstop⟩ := Prod.mk.inj (Option.some.inj hruns)
  exact ⟨by decide +kernel,joint,x,y,hplan,hx,hjoint,hy,hprinted,hstop,
    hagrees fresh (Or.inl rfl) false input⟩

end Stream
end CellScript
