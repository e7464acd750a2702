import Mathlib
import CellScript.Proofs.Script.Positional
import CellScript.Proofs.Stream.HeaderLine

/-! Header mode for plans that give cells by their positions only. The header line is taken off the
input, and the rest is worked on as it is without header mode. -/
namespace CellScript

/-- The same plan without header mode. -/
def Plan.headless (p : Plan) : Plan :=
  { p with options := { p.options with hasHeader := false } }

def Pipeline.headless (p : Pipeline) : Pipeline := { p with plan := p.plan.headless }

/-- Every stage gives cells by their positions. -/
def Pipeline.positional (p : Pipeline) : Bool :=
  p.filter.all Script.Formula.positional && p.body.all Script.Program.positional &&
    p.afterFilter.all Script.Formula.positional && p.projection.all Script.Formula.positional

/-- Header mode makes no difference to the code of a plan. -/
lemma Plan.ofOptions_headless {o : Options} {plan : Plan} (h : ofOptions o = .ok plan) :
    ofOptions { o with hasHeader := false } = .ok plan.headless := by
  obtain ⟨f,b,a,hf,hb,ha,rfl⟩ := ofOptions_eq_ok h
  exact ofOptions_of_stages hf hb ha

lemma Pipeline.compile_headless {plan : Plan} {p : Pipeline} (h : compile plan = .ok p) :
    compile plan.headless = .ok p.headless := by
  obtain ⟨rfl,hf,hb,ha,hp⟩ := compile_eq_ok_iff.mp h
  exact compile_eq_ok_iff.mpr ⟨rfl,hf,hb,ha,hp⟩

namespace Stream

section

variable {l l' : Layout} {row : Row}

lemma meets_positional {f : Option Script.Formula}
    (h : f.all Script.Formula.positional = true) : meets f l' row = meets f l row := by
  cases f with
  | none => rfl
  | some f => exact Script.Formula.holds_positional h l l' row

lemma change_positional {body : Option Script.Program}
    (h : body.all Script.Program.positional = true) : change body l' row = change body l row := by
  cases body with
  | none => rfl
  | some program =>
    have hrun := Script.Program.run_positional (p := program) h l l' row
    simp only [change,hrun]

lemma project_positional {fs : List Script.Formula}
    (h : fs.all Script.Formula.positional = true) : project fs l' row = project fs l row := by
  have hvalues : (fs.mapM fun f => do fieldsOf (← f.value l' row)) =
      (fs.mapM fun f => do fieldsOf (← f.value l row)) := by
    induction fs with
    | nil => rfl
    | cons f fs ih =>
      simp only [List.all_cons,Bool.and_eq_true] at h
      rw [List.mapM_cons,List.mapM_cons,ih h.2,Script.Formula.value_positional h.1 l l']
  rw [project,project,hvalues]

/-- Of the columns only what separates them is seen in the work on a row. -/
lemma processRow_positional {p : Pipeline} (h : p.positional = true)
    (hl : l'.delimiter = l.delimiter) (row : Row) :
    processRow p.headless l' row = processRow p l row := by
  simp only [Pipeline.positional,Bool.and_eq_true] at h
  obtain ⟨⟨⟨hf,hb⟩,ha⟩,hs⟩ := h
  have houtput : ∀ row, output p.headless l' row = output p l row := by
    intro row
    rw [output,output,Row.text,Row.text,hl,show p.headless.projection = p.projection from rfl,
      project_positional (l := l) hs]
  have hmeets : ∀ {f : Option Script.Formula}, f.all Script.Formula.positional = true →
      ∀ row, meets f l' row = meets f l row := fun h row => meets_positional h
  have hchange : change p.body l' row = change p.body l row := change_positional hb
  rw [processRow,processRow,show p.headless.filter = p.filter from rfl,
    show p.headless.body = p.body from rfl,show p.headless.afterFilter = p.afterFilter from rfl,
    hmeets hf,hchange]
  simp only [hmeets ha,houtput]

lemma lineVerdict_positional {p : Pipeline} (h : p.positional = true)
    (hl : l'.delimiter = l.delimiter) (raw : Text) :
    lineVerdict p.headless l' raw = lineVerdict p l raw := by
  have hrow : rowOf l' raw = rowOf l raw := by rw [rowOf,rowOf,Row.parse,Row.parse,hl]
  rw [lineVerdict,lineVerdict,hrow,processRow_positional h hl]

end

def Stop.later : Stop → Stop
  | .line e => .line { e with line := e.line+1 }
  | .cancelled => .cancelled
  | .tooLong => .tooLong

/-- A run that prints a text first and then does what another run does, one line later. -/
structure Run.Trails (r : Run) (first : Text) (other : Run) : Prop where
  printed : r.printed = first ++ other.printed
  stop : r.stop = other.stop.map Stop.later

/-- Where both runs go on to the end of what is read, they stop alike. -/
lemma Run.Trails.andThen {r other : Run} {first : Text} (h : r.Trails first other) {stop : Option Stop}
    (hstop : stop.map Stop.later = stop) :
    (r.andThen fun t => ⟨t,[],stop⟩).Trails first (other.andThen fun t => ⟨t,[],stop⟩) := by
  cases ho : other.stop with
  | none =>
    have hr : r.stop = none := by simpa [ho] using h.stop
    rw [Run.andThen_of_none hr,Run.andThen_of_none ho,List.append_nil,List.append_nil]
    exact ⟨h.printed,hstop.symm⟩
  | some s =>
    have hr : r.stop.isSome := by simp [h.stop,ho]
    rwa [Run.andThen_of_stop hr,Run.andThen_of_stop (by simp [ho])]

/-- What is too long to be read has no number. -/
lemma readStop_later (input : Text) : (readStop input).map Stop.later = readStop input := by
  rw [readStop]
  split <;> rfl

/-- Data lines that are numbered from one place later are otherwise worked on alike. -/
lemma runLines_trails {p : Pipeline} (h : p.positional = true) {s t : Stream}
    (hs : PastHeader p s) (hl : t.layout.delimiter = s.layout.delimiter)
    (hline : s.line = t.line+1) (data : List Text) :
    (runLines p s data).Trails [] (runLines p.headless t data) := by
  induction data generalizing s t with
  | nil => exact ⟨rfl,rfl⟩
  | cons raw rest ih =>
    have ht : PastHeader p.headless t := fun hyes => absurd hyes Bool.false_ne_true
    have hrest := @ih { s with line := s.line+1 } { t with line := t.line+1 }
      (fun _ => Nat.succ_ne_zero _) hl (congrArg (·+1) hline)
    rw [runLines,runLines,process_of_pastHeader hs,process_of_pastHeader ht,
      lineVerdict_positional h hl]
    rcases lineVerdict p s.layout raw with ⟨stage,cause⟩ | outcome
    · exact ⟨rfl,by simp [Stop.later,hline]⟩
    · exact ⟨congrArg (outcome.print ++ ·) hrest.printed,hrest.stop⟩

/-- An input whose first line can be read is read like its further lines alone, behind that line. -/
lemma read_cons {input data raw : Text} (hlines : input.lines = raw::data.lines)
    (hraw : raw.length < lineLimit) :
    inputLines input = Text.dropEnding [Text.ascii '\r'] raw::inputLines data ∧
      readStop input = readStop data := by
  have hshort : isShort raw = true := isShort_iff.mpr hraw
  refine ⟨?_,?_⟩
  · rw [inputLines,hlines,List.takeWhile_cons_of_pos hshort,List.map_cons,inputLines]
  · rw [readStop,hlines,List.all_cons,hshort,Bool.true_and,readStop]

/-- A plan that gives cells by their positions treats the lines behind an accepted header as the
same plan without header mode treats them alone: it prints the same, and fails for the same reason
in the same stage, one line later. So it is with the inputs that these lines stand in, if the header is
read at all: in front of a header line that is too long every run stops. -/
theorem header_mode_takes_one_line {o : Options} {plan : Plan} {p : Pipeline}
    (hplan : Plan.ofOptions o = .ok plan) (hp : Pipeline.compile plan = .ok p)
    (hheader : o.hasHeader = true) (hposition : p.positional = true) {header : Text}
    {outcome : Outcome} (haccepted : (process p (fresh plan) header).2 = .ok outcome) :
    (o.printHeader = false → outcome.print = []) ∧
    ∃ plan' p', Plan.ofOptions { o with hasHeader := false } = .ok plan' ∧
      Pipeline.compile plan' = .ok p' ∧
      (∀ data : List Text, (runLines p (fresh plan) (header::data)).Trails outcome.print
        (runLines p' (fresh plan') data)) ∧
      (∀ input data raw : Text, input.lines = raw::data.lines →
        Text.dropEnding [Text.ascii '\r'] raw = header → raw.length < lineLimit →
        (run p false (fresh plan) input).Trails outcome.print (run p' false (fresh plan') data)) ∧
      ∀ (input raw : Text) (rest : List Text), input.lines = raw::rest → lineLimit ≤ raw.length →
        run p false (fresh plan) input = ⟨fresh plan,[],some .tooLong⟩ := by
  obtain rfl := (Pipeline.compile_eq_ok_iff.mp hp).1
  obtain rfl := Plan.options_ofOptions hplan
  have hfirst := process_header hheader rfl rfl (s := fresh p.plan) header
  have hlines : ∀ data : List Text, (runLines p (fresh p.plan) (header::data)).Trails
      outcome.print (runLines p.headless (fresh p.plan.headless) data) := by
    intro data
    have hrest := runLines_trails hposition (s := ⟨headed p.plan header,1,false⟩)
      (t := fresh p.plan.headless) (fun _ => Nat.one_ne_zero) rfl rfl data
    rw [hfirst] at haccepted
    rw [runLines,hfirst]
    simp only at haccepted
    rw [haccepted]
    exact ⟨congrArg (outcome.print ++ ·) hrest.printed,hrest.stop⟩
  refine ⟨fun hprint => ?_,_,_,Plan.ofOptions_headless hplan,Pipeline.compile_headless hp,hlines,?_,?_⟩
  · rw [hfirst,hprint] at haccepted
    obtain rfl : .hidden = outcome := Except.ok.inj haccepted
    rfl
  · intro input data raw hinput hraw hshort
    obtain ⟨hread,hstop⟩ := read_cons hinput hshort
    rw [run_uncancelled,run_uncancelled,hread,hstop,hraw]
    exact (hlines _).andThen (readStop_later data)
  · intro input raw rest hinput hlong
    have hfirst : input.lines = [] ++ raw::rest := hinput
    exact run_of_long hfirst (by simp) hlong p _ rfl

/-- One more in the second column of positive rows, and the last column first. -/
def turned : Options where
  filter := Text.ofString "i[0] > 0"
  statement := Text.ofString "i[1] += 1"
  select := Text.ofString "-1,0:-1"

def turnedPlan : Plan where
  options := turned
  filter := some (Text.ofString "row.int[0]>0")
  body := some (Text.ofString "row[1] = row.int[1] + (1)")
  afterFilter := none
  projection := [Text.ofString "row[-1]",Text.ofString "row[0:-1]"]
  newHeaders := []

/-- A line is printed, and the next one fails. Nothing is printed in front of a header that is too long. -/
theorem header_mode_takes_one_line_turned :
    ∃ p plan' p', Plan.ofOptions turned = .ok turnedPlan ∧ Pipeline.compile turnedPlan = .ok p ∧
      Plan.ofOptions { turned with hasHeader := false } = .ok plan' ∧
      Pipeline.compile plan' = .ok p' ∧
      (run p false (fresh turnedPlan) (Text.ofString "a,b\n3,4\nx,1\n")).printed =
        Text.ofString "b,a\n5,3\n" ∧
      (run p false (fresh turnedPlan) (Text.ofString "a,b\n3,4\nx,1\n")).Trails
        (Text.ofString "b,a\n") (run p' false (fresh plan') (Text.ofString "3,4\nx,1\n")) ∧
      run p false (fresh turnedPlan) longLine = ⟨fresh turnedPlan,[],some .tooLong⟩ := by
  have hplan : Plan.ofOptions turned = .ok turnedPlan := by decide +kernel
  obtain ⟨p,hp⟩ := Shorthand.exists_ok (x := Pipeline.compile turnedPlan) (by decide +kernel)
  have hfacts : (Pipeline.compile turnedPlan).toOption.map (fun p => (p.positional,
      (process p (fresh turnedPlan) (Text.ofString "a,b")).2.toOption,
      (run p false (fresh turnedPlan) (Text.ofString "a,b\n3,4\nx,1\n")).printed)) =
      some (true,some (.printed (Text.ofString "b,a")),Text.ofString "b,a\n5,3\n") := by
    decide +kernel
  rw [hp] at hfacts
  simp only [Except.toOption,Option.map_some,Option.some.injEq,Prod.mk.injEq] at hfacts
  obtain ⟨hposition,hprocess,hprinted⟩ := hfacts
  have haccepted : (process p (fresh turnedPlan) (Text.ofString "a,b")).2 =
      .ok (.printed (Text.ofString "b,a")) := by
    cases h : (process p (fresh turnedPlan) (Text.ofString "a,b")).2 with
    | error e => simp [h] at hprocess
    | ok outcome => simpa [h] using hprocess
  obtain ⟨-,plan',p',hplan',hp',-,hrun,hlong⟩ :=
    header_mode_takes_one_line hplan hp rfl hposition haccepted
  exact ⟨p,plan',p',hplan,hp,hplan',hp',hprinted,
    hrun _ _ (Text.ofString "a,b") (by decide +kernel) (by decide +kernel) (by decide +kernel),
    hlong longLine longLine [] lines_longLine length_longLine.ge⟩

end Stream
end CellScript
