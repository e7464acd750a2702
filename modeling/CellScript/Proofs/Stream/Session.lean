import Mathlib
import CellScript.Stream.Basic

/-! Sessions: a pipeline that takes step after step on streams that follow each other. A stream after
another one behaves like a first stream whose header is not asked for. -/
namespace CellScript

/-- The same plan, with its header unprinted. -/
def Plan.hideHeader (p : Plan) : Plan :=
  { p with options := { p.options with printHeader := false } }

def Pipeline.hideHeader (p : Pipeline) : Pipeline := { p with plan := p.plan.hideHeader }

/-- A plan is compiled when each of its stages is. -/
theorem Pipeline.compile_eq_ok_iff {plan : Plan} {p : Pipeline} :
    compile plan = .ok p ↔ p.plan = plan ∧ formula? .filter plan.filter = .ok p.filter ∧
      program? .statement plan.body = .ok p.body ∧
      formula? .afterFilter plan.afterFilter = .ok p.afterFilter ∧
      (plan.projection.mapM fun code => inStage .select (Script.Formula.compile code)) =
        .ok p.projection := by
  constructor
  · intro h
    rw [compile] at h
    rcases hf : formula? .filter plan.filter with error | filter
    · rw [hf] at h
      cases h
    rcases hb : program? .statement plan.body with error | body
    · rw [hf,hb] at h
      cases h
    rcases ha : formula? .afterFilter plan.afterFilter with error | afterFilter
    · rw [hf,hb,ha] at h
      cases h
    rcases hp : plan.projection.mapM fun code => inStage .select (Script.Formula.compile code) with
      error | projection
    · rw [hf,hb,ha,hp] at h
      cases h
    · rw [hf,hb,ha,hp] at h
      cases h
      exact ⟨rfl,rfl,rfl,rfl,rfl⟩
  · rintro ⟨rfl,hf,hb,ha,hp⟩
    rw [compile,hf,hb,ha,hp]
    rfl

/-- Whether the header is printed makes no difference to how a plan is compiled. -/
lemma Pipeline.compile_hideHeader {plan : Plan} {p : Pipeline} (h : compile plan = .ok p) :
    compile plan.hideHeader = .ok p.hideHeader := by
  obtain ⟨rfl,hf,hb,ha,hp⟩ := compile_eq_ok_iff.mp h
  exact compile_eq_ok_iff.mpr ⟨rfl,hf,hb,ha,hp⟩

namespace Stream

inductive Step where
  | run (cancelled : Bool) (input : Text)
  | process (raw : Text)
  | reset
  | nextStream

inductive Reply where
  | ran (printed : Text) (stop : Option Stop)
  | processed (result : Except Error Outcome)
  | done

def Step.stays : Step → Bool
  | run _ _ | process _ => true
  | reset | nextStream => false

def step (p : Pipeline) (s : Stream) : Step → Stream × Reply
  | .run cancelled input =>
    let run := Stream.run p cancelled s input
    (run.stream,.ran run.printed run.stop)
  | .process raw =>
    let (s,result) := process p s raw
    (s,.processed result)
  | .reset => (fresh p.plan,.done)
  | .nextStream => (next p.plan,.done)

/-- The state after steps, failed ones included, and what each of them gives. -/
def session (p : Pipeline) (s : Stream) : List Step → Stream × List Reply
  | [] => (s,[])
  | x::xs =>
    let (s,reply) := step p s x
    let (s,replies) := session p s xs
    (s,reply::replies)

lemma session_append (p : Pipeline) (s : Stream) (xs ys : List Step) :
    session p s (xs ++ ys) = ((session p (session p s xs).1 ys).1,
      (session p s xs).2 ++ (session p (session p s xs).1 ys).2) := by
  induction xs generalizing s with
  | nil => rfl
  | cons x xs ih =>
    simp only [List.cons_append,session,ih]

/-- Two states of which the first keeps its header unprinted and which agree in all else. -/
structure Hushed (s t : Stream) : Prop where
  layout : s.layout = t.layout
  line : s.line = t.line
  quiet : s.quiet = true

lemma hushed_next (p : Plan) : Hushed (next p) (fresh p.hideHeader) := ⟨rfl,rfl,rfl⟩

lemma Hushed.processHeader {s t : Stream} (h : Hushed s t) (p : Pipeline) (raw : Text) :
    Hushed (processHeader p s raw).1 (processHeader p.hideHeader t raw).1 ∧
      (processHeader p s raw).2 = (processHeader p.hideHeader t raw).2 := by
  obtain ⟨layout,line,quiet⟩ := s
  obtain ⟨layout',line',quiet'⟩ := t
  obtain ⟨rfl,rfl,rfl⟩ := h
  have hplan : registerHeader p.hideHeader.plan = registerHeader p.plan := rfl
  have hprint : p.hideHeader.plan.options.printHeader = false := rfl
  rw [Stream.processHeader,Stream.processHeader,hplan,hprint]
  dsimp only
  rcases registerHeader p.plan layout (rowOf layout raw) with error | ⟨registered,row⟩
  · exact ⟨⟨rfl,rfl,rfl⟩,rfl⟩
  · simp only [Bool.or_true,if_true,Bool.not_false,Bool.true_or]
    exact ⟨⟨rfl,rfl,rfl⟩,trivial⟩

/-- A line gives the same in both states. -/
lemma Hushed.process {s t : Stream} (h : Hushed s t) (p : Pipeline) (raw : Text) :
    Hushed (process p s raw).1 (process p.hideHeader t raw).1 ∧
      (process p s raw).2 = (process p.hideHeader t raw).2 := by
  obtain ⟨layout,line,quiet⟩ := s
  obtain ⟨layout',line',quiet'⟩ := t
  obtain ⟨rfl,rfl,rfl⟩ := h
  have hmode : p.hideHeader.plan.options.hasHeader = p.plan.options.hasHeader := rfl
  have hrow : processRow p.hideHeader = processRow p := rfl
  rw [Stream.process,Stream.process,hmode,hrow]
  dsimp only
  split
  · have hnext : Hushed ⟨layout,line+1,true⟩ ⟨layout,line+1,quiet'⟩ := ⟨rfl,rfl,rfl⟩
    exact hnext.processHeader p raw
  · split
    · exact ⟨⟨rfl,rfl,rfl⟩,rfl⟩
    · exact ⟨⟨rfl,rfl,rfl⟩,rfl⟩

lemma Hushed.runLines {s t : Stream} (h : Hushed s t) (p : Pipeline) (ls : List Text) :
    Hushed (runLines p s ls).stream (runLines p.hideHeader t ls).stream ∧
      (runLines p s ls).printed = (runLines p.hideHeader t ls).printed ∧
      (runLines p s ls).stop = (runLines p.hideHeader t ls).stop := by
  induction ls generalizing s t with
  | nil => exact ⟨h,rfl,rfl⟩
  | cons raw rest ih =>
    obtain ⟨hstate,hresult⟩ := h.process p raw
    rw [Stream.runLines,Stream.runLines]
    rcases hs : Stream.process p s raw with ⟨s',result⟩
    rcases ht : Stream.process p.hideHeader t raw with ⟨t',result'⟩
    rw [hs,ht] at hstate hresult
    obtain rfl : result = result' := hresult
    cases result with
    | error e => exact ⟨hstate,rfl,rfl⟩
    | ok outcome =>
      obtain ⟨hstream,hprinted,hstop⟩ := ih hstate
      exact ⟨hstream,congrArg (outcome.print ++ ·) hprinted,hstop⟩

/-- A run gives the same in both states. -/
lemma Hushed.run {s t : Stream} (h : Hushed s t) (p : Pipeline) (cancelled : Bool) (input : Text) :
    Hushed (run p cancelled s input).stream (run p.hideHeader cancelled t input).stream ∧
      (run p cancelled s input).printed = (run p.hideHeader cancelled t input).printed ∧
      (run p cancelled s input).stop = (run p.hideHeader cancelled t input).stop := by
  rw [Stream.run,Stream.run]
  split
  · exact ⟨h,rfl,rfl⟩
  · cases cancelled with
    | true => exact ⟨h,rfl,rfl⟩
    | false =>
      obtain ⟨hstream,hprinted,hstop⟩ := h.runLines p (inputLines input)
      exact ⟨hstream,hprinted,congrArg (·.or (readStop input)) hstop⟩

/-- A step that stays within the stream gives the same in both states. -/
lemma Hushed.step {s t : Stream} (h : Hushed s t) (p : Pipeline) {x : Step}
    (hx : x.stays = true) : Hushed (step p s x).1 (step p.hideHeader t x).1 ∧
      (step p s x).2 = (step p.hideHeader t x).2 := by
  cases x with
  | run cancelled input =>
    obtain ⟨hstream,hprinted,hstop⟩ := h.run p cancelled input
    refine ⟨hstream,?_⟩
    simp only [Stream.step,hprinted,hstop]
  | process raw =>
    obtain ⟨hstream,hresult⟩ := h.process p raw
    exact ⟨hstream,congrArg Reply.processed hresult⟩
  | reset => simp [Step.stays] at hx
  | nextStream => simp [Step.stays] at hx

/-- Steps that stay within the stream give the same in both states. -/
lemma Hushed.session {s t : Stream} (h : Hushed s t) (p : Pipeline) {xs : List Step}
    (hx : ∀ x ∈ xs, x.stays = true) :
    (session p s xs).2 = (session p.hideHeader t xs).2 := by
  induction xs generalizing s t with
  | nil => rfl
  | cons x xs ih =>
    obtain ⟨hstate,hreply⟩ := h.step p (hx x (by simp))
    have hrest := ih hstate fun y hy => hx y (by simp [hy])
    simp only [Stream.session,hreply,hrest]

/-- The state after a last step. -/
lemma session_concat (p : Pipeline) (s : Stream) (xs : List Step) (x : Step) :
    (session p s (xs ++ [x])).1 = (step p (session p s xs).1 x).1 := by
  rw [session_append]
  rfl

end Stream
end CellScript
