import Mathlib
import CellScript.Proofs.Command.Streams
import CellScript.Proofs.Stream.HeaderLine

/-! The header over several files. A command prints the header of its first file and of no other one,
so the header is lost when the first file has no line and a later one does. -/
namespace CellScript

namespace Stream

/-- What the data lines of a content print under its own header. -/
def dataText (p : Pipeline) (content : Text) : Text :=
  match inputLines content with
  | [] => []
  | header::data => data.flatMap fun line =>
    match lineVerdict p (headed p.plan header) line with
    | .ok outcome => outcome.print
    | .error _ => []

/-- A run that does not stop takes all lines. -/
lemma run_of_success {p : Pipeline} {cancelled : Bool} {s : Stream} {content : Text}
    (h : (run p cancelled s content).stop = none) :
    run p cancelled s content = runLines p s (inputLines content) := by
  cases cancelled with
  | false => exact run_of_readStop (stop_run_eq_none_iff.mp h).2 p s
  | true =>
    rw [run_cancelled] at h ⊢
    by_cases hnone : inputLines content = []
    · simp only [if_pos hnone] at h
      rw [if_pos hnone,hnone,h]
      rfl
    · simp [hnone] at h

/-- A stream that is read from its first line on prints what its header gives and then its data. -/
lemma printed_of_start {p : Pipeline} (hheader : p.plan.options.hasHeader = true) {s : Stream}
    (hline : s.line = 0) (hlayout : s.layout = (fresh p.plan).layout) {content header : Text}
    {data : List Text} (hlines : inputLines content = header::data)
    (h : (runLines p s (header::data)).stop = none) :
    ∃ outcome, (process p s header).2 = .ok outcome ∧
      (runLines p s (header::data)).printed = outcome.print ++ dataText p content := by
  have hstart := process_header hheader hline hlayout header
  rw [runLines] at h ⊢
  rcases hp : process p s header with ⟨t,error | outcome⟩
  · simp [hp] at h
  · obtain rfl : (⟨headed p.plan header,1,s.quiet⟩ : Stream) = t := by
      rw [hp] at hstart
      exact (congrArg Prod.fst hstart).symm
    simp only [hp] at h ⊢
    have hpast : PastHeader p ⟨headed p.plan header,1,s.quiet⟩ := fun _ => by simp
    refine ⟨outcome,rfl,congrArg (outcome.print ++ ·) ?_⟩
    rw [(runLines_of_pastHeader hpast data).2 h,dataText,hlines,← List.flatMap_def]
    congr 1
    funext line
    exact emitted_of_verdict hpast line

end Stream

namespace Command

open CellScript.Stream

lemma Report.andThen_eq_none {first : Report} {second : Unit → Report}
    (h : (first.andThen second).failure = none) :
    first.failure = none ∧ (second ()).failure = none := by
  cases hf : first.failure with
  | none => exact ⟨rfl,(Report.andThen_of_success hf second).1 ▸ h⟩
  | some failure => simp [Report.andThen,hf] at h

/-- A file that gives no failure can be read, and the run over it does not stop. -/
lemma runFile_eq_none {m : Settings.Machine} {debug cancelled : Bool} {p : Pipeline} {s : Stream}
    {path : Text} (h : (runFile m debug cancelled p s path).failure = none) :
    ∃ content, m.read? path = some content ∧ (Stream.run p cancelled s content).stop = none := by
  rw [runFile] at h
  cases hr : m.read? path with
  | none => simp [hr,Report.failed] at h
  | some content =>
    rw [hr] at h
    exact ⟨content,rfl,by simpa [runContent] using h⟩

/-- Files that give no failure can all be read, and the run stops in none of them. -/
lemma runFiles_eq_none {m : Settings.Machine} {debug cancelled : Bool} {p : Pipeline} {s : Stream}
    {path : Text} {paths : List Text}
    (h : (runFiles m debug cancelled p s (path::paths)).failure = none) :
    ∃ content contents, m.read? path = some content ∧
      List.Forall₂ (fun path content => m.read? path = some content) paths contents ∧
      (Stream.run p cancelled s content).stop = none ∧
      ∀ c ∈ contents, (Stream.run p cancelled (next p.plan) c).stop = none := by
  induction paths generalizing s path with
  | nil =>
    obtain ⟨content,hread,hstop⟩ := runFile_eq_none (Report.andThen_eq_none h).1
    exact ⟨content,[],hread,.nil,hstop,by simp⟩
  | cons path' paths ih =>
    obtain ⟨hfirst,hrest⟩ := Report.andThen_eq_none h
    obtain ⟨content,hread,hstop⟩ := runFile_eq_none hfirst
    obtain ⟨content',contents,hread',hreads,hstop',hstops⟩ := ih hrest
    refine ⟨content,content'::contents,hread,.cons hread' hreads,hstop,?_⟩
    intro c hc
    rcases List.mem_cons.mp hc with rfl | hc
    · exact hstop'
    · exact hstops c hc

/-- A file after the first one prints its data alone. -/
lemma printed_next {p : Pipeline} (hheader : p.plan.options.hasHeader = true) {cancelled : Bool}
    {content : Text} (h : (Stream.run p cancelled (next p.plan) content).stop = none) :
    (Stream.run p cancelled (next p.plan) content).printed = dataText p content := by
  have hrun := run_of_success h
  rw [hrun] at h ⊢
  cases hlines : inputLines content with
  | nil => simp [dataText,hlines,runLines]
  | cons header data =>
    rw [hlines] at h
    obtain ⟨outcome,houtcome,hprinted⟩ :=
      printed_of_start (s := next p.plan) hheader rfl rfl hlines h
    have hquiet : (next p.plan).quiet = true := rfl
    rw [process_header (s := next p.plan) hheader rfl rfl,hquiet,Bool.not_true,
      Bool.and_false] at houtcome
    obtain rfl : Outcome.hidden = outcome := Except.ok.inj houtcome
    exact hprinted

/-- The first file prints its header, if it has a line, and its data. -/
lemma printed_fresh {p : Pipeline} (hheader : p.plan.options.hasHeader = true)
    (hprint : p.plan.options.printHeader = true) {cancelled : Bool} {content : Text}
    (h : (Stream.run p cancelled (fresh p.plan) content).stop = none) :
    (inputLines content = [] ∧
      (Stream.run p cancelled (fresh p.plan) content).printed = dataText p content) ∨
    ∃ header data text, inputLines content = header::data ∧
      output p (headed p.plan header) (headerRow p.plan header) = .ok text ∧
      (Stream.run p cancelled (fresh p.plan) content).printed =
        text ++ [Text.ascii '\n'] ++ dataText p content := by
  have hrun := run_of_success h
  rw [hrun] at h ⊢
  cases hlines : inputLines content with
  | nil => exact Or.inl ⟨rfl,by simp [dataText,hlines,runLines]⟩
  | cons header data =>
    rw [hlines] at h
    obtain ⟨outcome,houtcome,hprinted⟩ := printed_of_start hheader rfl rfl hlines h
    have hquiet : (fresh p.plan).quiet = false := rfl
    rw [process_header hheader rfl rfl,hquiet,hprint] at houtcome
    cases htext : output p (headed p.plan header) (headerRow p.plan header) with
    | error error => simp [htext] at houtcome
    | ok text =>
      rw [htext] at houtcome
      obtain rfl : Outcome.printed text = outcome := Except.ok.inj houtcome
      exact Or.inr ⟨header,data,text,rfl,htext,hprinted⟩

/-- A command that runs over files without a failure. The first file that has a line is either the
first of all, and then its header is printed in front of the data of all files, or it comes after a
file without a line, and then no header is printed. -/
theorem header_of_first_file {m : Settings.Machine} {c : Call} {file : Text} {debug : Bool}
    {r : RunRequest} {config : Config} {plan : Plan} {p : Pipeline}
    (hline : Line.read c.args = .ok (.task file debug (.run r)))
    (hconfig : setUp m.loadEnv c.build file = .ok config)
    (hplan : Plan.ofOptions (optionsOf config r) = .ok plan) (hp : Pipeline.compile plan = .ok p)
    (hexplain : r.explain = false) (hwatch : r.watch = false) (hinputs : r.inputs ≠ [])
    (hheader : plan.options.hasHeader = true) (hprint : plan.options.printHeader = true)
    (hok : (run m c).2.failure = none) :
    ∃ contents, List.Forall₂ (fun path content => m.loadEnv.read? path = some content) r.inputs
        contents ∧
      ∀ empty content later header data, contents = empty ++ content::later →
        (∀ d ∈ empty, inputLines d = []) → inputLines content = header::data →
        (empty = [] → ∃ text, output p (headed plan header) (headerRow plan header) = .ok text ∧
          (run m c).2.stdout =
            text ++ [Text.ascii '\n'] ++ (contents.map (dataText p)).flatten) ∧
        (empty ≠ [] → (run m c).2.stdout = (contents.map (dataText p)).flatten) := by
  obtain ⟨rfl,-⟩ := Pipeline.compile_eq_ok_iff.mp hp
  obtain ⟨hfailure,hstdout⟩ := run_of_request hline hconfig (prepare_of_compile hplan hp) hexplain
    hwatch hinputs
  obtain ⟨path,paths,hpaths⟩ := List.exists_cons_of_ne_nil hinputs
  rw [hfailure,hpaths] at hok
  obtain ⟨first,rest,hread,hreads,hstop,hstops⟩ := runFiles_eq_none hok
  have hout := (@runFiles_of_success _ (debug || config.debug) _ _ _ _ _ _ _ hread hreads hstop
    hstops).2
  have hnext : rest.map (fun d => (Stream.run p c.cancelled (next p.plan) d).printed) =
      rest.map (dataText p) :=
    List.map_congr_left fun d hd => printed_next hheader (hstops d hd)
  rw [hstdout,hpaths,hout,hnext]
  refine ⟨first::rest,.cons hread hreads,?_⟩
  intro empty content later header data hcontents hempty hlines
  rcases printed_fresh hheader hprint hstop with ⟨hnone,hprinted⟩ | ⟨header',data',text,hsome,htext,hprinted⟩
  · -- the first file has no line
    rw [hprinted]
    refine ⟨?_,fun _ => by simp⟩
    rintro rfl
    rw [List.nil_append,List.cons.injEq] at hcontents
    rw [← hcontents.1,hnone] at hlines
    simp at hlines
  · -- the first file has a header
    have hnil : empty = [] := by
      cases empty with
      | nil => rfl
      | cons d empty =>
        rw [List.cons_append,List.cons.injEq] at hcontents
        have hd := hempty d (by simp)
        rw [← hcontents.1,hsome] at hd
        simp at hd
    subst hnil
    rw [List.nil_append,List.cons.injEq] at hcontents
    rw [← hcontents.1,hsome,List.cons.injEq] at hlines
    refine ⟨fun _ => ⟨text,hlines.1 ▸ htext,?_⟩,fun hne => absurd rfl hne⟩
    rw [hprinted]
    simp

set_option maxRecDepth 4000 in
/-- Of two files with headers the first one has its header printed. -/
theorem header_of_first_file_sixths :
    (run sixthsFiles sixthsCall).2.failure = none ∧
    (run sixthsFiles sixthsCall).2.stdout = Text.ofString "n\n" ++
      (dataText sixths (Text.ofString "n\n1\n") ++ dataText sixths (Text.ofString "m\n2\n")) := by
  have hok : (run sixthsFiles sixthsCall).2.failure = none := by decide +kernel
  have hline : Line.read sixthsCall.args = .ok (.task [] false (.run
      { statement := Text.ofString "s[1] = 6//i[0]",
        inputs := [Text.ofString "a",Text.ofString "b"] })) := rfl
  have hconfig : setUp sixthsFiles.loadEnv sixthsCall.build [] = .ok {} := rfl
  have hplan : Plan.ofOptions (optionsOf {}
      { statement := Text.ofString "s[1] = 6//i[0]",
        inputs := [Text.ofString "a",Text.ofString "b"] }) = .ok sixths.plan := by decide +kernel
  obtain ⟨contents,hreads,hfirst⟩ := header_of_first_file (p := sixths) hline hconfig hplan rfl rfl
    rfl (by simp) rfl rfl hok
  obtain rfl : contents = [Text.ofString "n\n1\n",Text.ofString "m\n2\n"] :=
    List.right_unique_forall₂' (fun _ _ _ h h' => Option.some_injective _ (h.symm.trans h')) hreads
      (.cons (by decide +kernel) (.cons (by decide +kernel) .nil))
  obtain ⟨text,htext,hout⟩ := (hfirst [] _ _ (Text.ofString "n") [Text.ofString "1"] rfl (by simp)
    (by decide +kernel)).1 rfl
  have htext' : output sixths (headed sixths.plan (Text.ofString "n"))
      (headerRow sixths.plan (Text.ofString "n")) = .ok (Text.ofString "n") := by decide +kernel
  obtain rfl : Text.ofString "n" = text := Except.ok.inj (htext'.symm.trans htext)
  refine ⟨hok,hout.trans ?_⟩
  have hend : Text.ofString "n" ++ [Text.ascii '\n'] = Text.ofString "n\n" := by decide
  simp [hend]

/-- A file without a line in front of one with a header. -/
def emptyFirst : Settings.Machine :=
  ⟨[(Text.ofString "/a",[]),(Text.ofString "/b",Text.ofString "a\n1\n")],[],Text.ofString "/"⟩

def emptyFirstCall : Call where
  args := [Text.ofString "-i",Text.ofString "a",Text.ofString "-i",Text.ofString "b"]

def plain : Pipeline := ⟨⟨{},none,none,none,[],[]⟩,none,none,none,[]⟩

/-- The header of the second file is lost behind a first file without a line. -/
theorem header_lost :
    ¬ ∀ (m : Settings.Machine) (c : Call) (file : Text) (debug : Bool) (r : RunRequest)
      (config : Config) (plan : Plan) (p : Pipeline) (empty later : List Text)
      (content header : Text) (data : List Text) (text : Text),
      Line.read c.args = .ok (.task file debug (.run r)) →
      setUp m.loadEnv c.build file = .ok config →
      Plan.ofOptions (optionsOf config r) = .ok plan → Pipeline.compile plan = .ok p →
      r.explain = false → r.watch = false → plan.options.hasHeader = true →
      plan.options.printHeader = true → (run m c).2.failure = none →
      List.Forall₂ (fun path content => m.loadEnv.read? path = some content) r.inputs
        (empty ++ content::later) →
      (∀ d ∈ empty, inputLines d = []) → inputLines content = header::data →
      output p (headed plan header) (headerRow plan header) = .ok text →
      text ++ [Text.ascii '\n'] <+: (run m c).2.stdout := by
  intro h
  have hline : Line.read emptyFirstCall.args = .ok (.task [] false (.run
      { inputs := [Text.ofString "a",Text.ofString "b"] })) := rfl
  have hfirst := h emptyFirst emptyFirstCall [] false _ {} plain.plan plain [[]] []
    (Text.ofString "a\n1\n") (Text.ofString "a") [Text.ofString "1"] (Text.ofString "a") hline rfl
    (by decide +kernel) rfl rfl rfl rfl rfl (by decide +kernel)
    (.cons (by decide +kernel) (.cons (by decide +kernel) .nil)) (by decide +kernel)
    (by decide +kernel) (by decide +kernel)
  exact absurd hfirst (by decide +kernel)

end Command
end CellScript
