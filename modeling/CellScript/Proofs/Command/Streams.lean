import Mathlib
import CellScript.Command.Run
import CellScript.Proofs.Stream.Resume
import CellScript.Proofs.Stream.Session

/-! Streams are isolated from each other: whatever a session has done, a new stream starts over, and
a command prints its files as streams of their own under one header. -/
namespace CellScript.Command

lemma Report.andThen_of_success {first : Report} (h : first.failure = none)
    (second : Unit → Report) : (first.andThen second).failure = (second ()).failure ∧
      (first.andThen second).stdout = first.stdout ++ (second ()).stdout := by
  rw [Report.andThen,h]
  exact ⟨rfl,rfl⟩

/-- A run over files that can all be read and do not fail. -/
lemma runFiles_of_success {m : Settings.Machine} {debug cancelled : Bool} {p : Pipeline}
    {s : Stream} {path content : Text} {paths contents : List Text}
    (hpath : m.read? path = some content)
    (hpaths : List.Forall₂ (fun path content => m.read? path = some content) paths contents)
    (hfirst : (Stream.run p cancelled s content).stop = none)
    (hrest : ∀ c ∈ contents, (Stream.run p cancelled (Stream.next p.plan) c).stop = none) :
    (runFiles m debug cancelled p s (path::paths)).failure = none ∧
      (runFiles m debug cancelled p s (path::paths)).stdout =
        (Stream.run p cancelled s content).printed ++
          (contents.map fun c => (Stream.run p cancelled (Stream.next p.plan) c).printed).flatten := by
  induction hpaths generalizing s path content with
  | nil =>
    have hreport : (runFile m debug cancelled p s path).failure = none := by
      simp [runFile,hpath,runContent,hfirst]
    obtain ⟨hfailure,hstdout⟩ := Report.andThen_of_success hreport
      fun _ => runFiles m debug cancelled p (Stream.next p.plan) []
    rw [runFiles]
    refine ⟨hfailure,hstdout.trans ?_⟩
    simp [runFile,hpath,runContent,runFiles]
  | @cons path' content' paths contents hpath' hpaths ih =>
    have hreport : (runFile m debug cancelled p s path).failure = none := by
      simp [runFile,hpath,runContent,hfirst]
    obtain ⟨hfailure,hstdout⟩ := Report.andThen_of_success hreport
      fun _ => runFiles m debug cancelled p (Stream.next p.plan) (path'::paths)
    obtain ⟨hfailure',hstdout'⟩ := ih (s := Stream.next p.plan) hpath'
      (hrest content' (by simp)) fun c hc => hrest c (by simp [hc])
    rw [runFiles]
    refine ⟨hfailure.trans hfailure',hstdout.trans ?_⟩
    rw [hstdout']
    simp [runFile,hpath,runContent]

/-- A command that runs a request, reduced to the run over its files. -/
lemma run_of_request {m : Settings.Machine} {c : Call} {file : Text} {debug : Bool}
    {r : RunRequest} {config : Config} {p : Pipeline}
    (hline : Line.read c.args = .ok (.task file debug (.run r)))
    (hconfig : setUp m.loadEnv c.build file = .ok config)
    (hprepare : prepare (optionsOf config r) = .ok p) (hexplain : r.explain = false)
    (hwatch : r.watch = false) (hinputs : r.inputs ≠ []) :
    (run m c).2.failure = (runFiles m.loadEnv (debug || config.debug) c.cancelled p
      (Stream.fresh p.plan) r.inputs).failure ∧
    (run m c).2.stdout = (runFiles m.loadEnv (debug || config.debug) c.cancelled p
      (Stream.fresh p.plan) r.inputs).stdout := by
  have hempty : r.inputs.isEmpty = false := by simpa using hinputs
  simp only [run,hline,hconfig,perform,runRequest,hprepare,runPipeline,hexplain,hwatch,hempty,
    Bool.false_and,Bool.false_eq_true,if_false]
  simp [Report.andThen,Report.noted]

lemma prepare_of_compile {o : Options} {plan : Plan} {p : Pipeline}
    (ho : Plan.ofOptions o = .ok plan) (hp : Pipeline.compile plan = .ok p) :
    prepare o = .ok p := by
  simp only [prepare,ho,hp]

open CellScript.Stream in
/-- Whatever a session has done, a reset makes it a session that starts, and the stream after another
one is a first stream whose header is not asked for. So a command that runs over files without a
failure prints the first of them as a run of its own, and each further one as a run of its own whose
header is not asked for. -/
theorem streams_isolated (plan : Plan) (p : Pipeline) (hp : Pipeline.compile plan = .ok p) :
    (∀ past later, session p (session p (fresh plan) (past ++ [.reset])).1 later =
      session p (fresh plan) later) ∧
    ∃ q, Pipeline.compile plan.hideHeader = .ok q ∧
      (∀ past later, (∀ x ∈ later, Step.stays x = true) →
        (session p (session p (fresh plan) (past ++ [.nextStream])).1 later).2 =
          (session q (fresh plan.hideHeader) later).2) ∧
      ∀ (m : Settings.Machine) (c : Call) file debug r config content contents,
        Line.read c.args = .ok (.task file debug (.run r)) →
        setUp m.loadEnv c.build file = .ok config →
        Plan.ofOptions (optionsOf config r) = .ok plan → r.explain = false → r.watch = false →
        List.Forall₂ (fun path content => m.loadEnv.read? path = some content) r.inputs
          (content::contents) →
        (Stream.run p c.cancelled (fresh plan) content).stop = none →
        (∀ d ∈ contents, (Stream.run q c.cancelled (fresh plan.hideHeader) d).stop = none) →
        (run m c).2.failure = none ∧
          (run m c).2.stdout = (Stream.run p c.cancelled (fresh plan) content).printed ++
            (contents.map fun d =>
              (Stream.run q c.cancelled (fresh plan.hideHeader) d).printed).flatten := by
  obtain ⟨hplan,-⟩ := Pipeline.compile_eq_ok_iff.mp hp
  refine ⟨?_,p.hideHeader,Pipeline.compile_hideHeader hp,?_,?_⟩
  · intro past later
    rw [session_concat,step,hplan]
  · intro past later hlater
    rw [session_concat,step,hplan]
    exact (hushed_next plan).session p hlater
  · intro m c file debug r config content contents hline hconfig hoptions hexplain hwatch hpaths
      hfirst hrest
    have hhushed : ∀ d, _ := fun d => (hushed_next plan).run p c.cancelled d
    obtain ⟨path,paths,hinputs⟩ : ∃ path paths, r.inputs = path::paths := by
      cases hr : r.inputs with
      | nil => rw [hr] at hpaths; cases hpaths
      | cons path paths => exact ⟨path,paths,rfl⟩
    rw [hinputs] at hpaths
    obtain ⟨hpath,hpaths⟩ := List.forall₂_cons.mp hpaths
    obtain ⟨hfailure,hstdout⟩ := run_of_request hline hconfig (prepare_of_compile hoptions hp)
      hexplain hwatch (by simp [hinputs])
    obtain ⟨hok,hout⟩ := @runFiles_of_success _ (debug || config.debug) _ _ (fresh p.plan) _ _ _ _
      hpath hpaths (by rwa [hplan]) fun d hd => by
        rw [hplan,(hhushed d).2.2]
        exact hrest d hd
    rw [hfailure,hstdout,hinputs,hok,hout,hplan]
    refine ⟨rfl,?_⟩
    simp only [fun d => (hhushed d).2.1]

/-- Two files with sixths to be computed. -/
def sixthsFiles : Settings.Machine :=
  ⟨[(Text.ofString "/a",Text.ofString "n\n1\n"),(Text.ofString "/b",Text.ofString "m\n2\n")],[],
    Text.ofString "/"⟩

def sixthsCall : Call where
  args := [Text.ofString "-i",Text.ofString "a",Text.ofString "-i",Text.ofString "b",
    Text.ofString "s[1] = 6//i[0]"]

open CellScript.Stream in
set_option maxRecDepth 4000 in
/-- The header of the first file stands for both. -/
theorem streams_isolated_sixths :
    Pipeline.compile sixths.plan = .ok sixths ∧
    session sixths (session sixths (fresh sixths.plan)
      ([.process (Text.ofString "n"),.process (Text.ofString "0")] ++ [.reset])).1
        [.run false (Text.ofString "m\n2\n")] =
      session sixths (fresh sixths.plan) [.run false (Text.ofString "m\n2\n")] ∧
    (run sixthsFiles sixthsCall).2.failure = none ∧
    (run sixthsFiles sixthsCall).2.stdout = Text.ofString "n\n1,6\n2,3\n" := by
  have hp : Pipeline.compile sixths.plan = .ok sixths := rfl
  obtain ⟨hreset,q,hq,-,hfiles⟩ := streams_isolated sixths.plan sixths hp
  obtain rfl : sixths.hideHeader = q :=
    Except.ok.inj ((Pipeline.compile_hideHeader hp).symm.trans hq)
  have hline : Line.read sixthsCall.args = .ok (.task [] false (.run
      { statement := Text.ofString "s[1] = 6//i[0]",
        inputs := [Text.ofString "a",Text.ofString "b"] })) := rfl
  obtain ⟨hok,hout⟩ := hfiles sixthsFiles sixthsCall [] false _ {} (Text.ofString "n\n1\n")
    [Text.ofString "m\n2\n"] hline rfl (by decide +kernel) rfl rfl
    (.cons (by decide +kernel) (.cons (by decide +kernel) .nil)) (by decide +kernel)
    (by decide +kernel)
  refine ⟨hp,hreset _ _,hok,hout.trans ?_⟩
  decide +kernel

end CellScript.Command
