import Mathlib
import CellScript.Proofs.Text.Lines
import CellScript.Stream.Basic

/-! Runs in parts. A run over lines can be cut between any two of them: the second part goes on from
the state that the first one has reached, and a part that stops ends the whole. -/
namespace CellScript.Stream

/-- A run, and another one from the state it has reached unless it has stopped. -/
def Run.andThen (first : Run) (second : Stream → Run) : Run :=
  match first.stop with
  | some _ => first
  | none =>
    let next := second first.stream
    { next with printed := first.printed ++ next.printed }

lemma Run.andThen_of_stop {first : Run} (h : first.stop.isSome) (second : Stream → Run) :
    first.andThen second = first := by
  obtain ⟨stop,hstop⟩ := Option.isSome_iff_exists.mp h
  rw [Run.andThen,hstop]

lemma Run.andThen_of_none {first : Run} (h : first.stop = none) (second : Stream → Run) :
    first.andThen second = ⟨(second first.stream).stream,
      first.printed ++ (second first.stream).printed,(second first.stream).stop⟩ := by
  rw [Run.andThen,h]

lemma Run.andThen_assoc (first : Run) (second third : Stream → Run) :
    (first.andThen second).andThen third = first.andThen fun s => (second s).andThen third := by
  cases h : first.stop with
  | some stop => simp [Run.andThen,h]
  | none =>
    rw [Run.andThen_of_none h,Run.andThen_of_none h]
    cases h' : (second first.stream).stop with
    | some stop => simp [Run.andThen,h']
    | none => simp [Run.andThen,h']

def runLine (p : Pipeline) (s : Stream) (raw : Text) : Run :=
  match process p s raw with
  | (s,.error error) => ⟨s,[],some (.line error)⟩
  | (s,.ok outcome) => ⟨s,outcome.print,none⟩

lemma runLines_cons (p : Pipeline) (s : Stream) (raw : Text) (rest : List Text) :
    runLines p s (raw::rest) = (runLine p s raw).andThen (runLines p · rest) := by
  rw [runLines,runLine]
  rcases process p s raw with ⟨s,error | outcome⟩ <;> rfl

/-- A run over lines can be cut between any two of them. -/
theorem runLines_append (p : Pipeline) (s : Stream) (xs ys : List Text) :
    runLines p s (xs ++ ys) = (runLines p s xs).andThen (runLines p · ys) := by
  induction xs generalizing s with
  | nil => rfl
  | cons x xs ih =>
    rw [List.cons_append,runLines_cons,runLines_cons,Run.andThen_assoc]
    simp only [ih]

lemma line_processHeader (p : Pipeline) (s : Stream) (raw : Text) :
    (processHeader p s raw).1.line = s.line ∧
      ∀ e, (processHeader p s raw).2 = .error e → e.line = s.line := by
  rw [processHeader]
  split
  · exact ⟨rfl,by rintro e ⟨⟩; rfl⟩
  · dsimp only
    split
    · exact ⟨rfl,by rintro e ⟨⟩⟩
    · split
      · exact ⟨rfl,by rintro e ⟨⟩⟩
      · exact ⟨rfl,by rintro e ⟨⟩; rfl⟩

/-- A line counts whatever comes of it, and a failure carries its number. -/
lemma line_process (p : Pipeline) (s : Stream) (raw : Text) :
    (process p s raw).1.line = s.line+1 ∧
      ∀ e, (process p s raw).2 = .error e → e.line = s.line+1 := by
  rw [process]
  dsimp only
  split
  · exact line_processHeader p _ raw
  · split
    · exact ⟨rfl,by rintro e ⟨⟩⟩
    · exact ⟨rfl,by rintro e ⟨⟩; rfl⟩

@[simp] lemma isShort_iff {raw : Text} : isShort raw = true ↔ raw.length < lineLimit :=
  decide_eq_true_iff

lemma readStop_eq_none_iff {input : Text} :
    readStop input = none ↔ ∀ line ∈ input.lines, line.length < lineLimit := by
  simp [readStop]

lemma inputLines_of_readStop {input : Text} (h : readStop input = none) :
    inputLines input = input.lines.map (Text.dropEnding [Text.ascii '\r']) := by
  rw [inputLines,List.takeWhile_eq_self_iff.mpr]
  simpa using readStop_eq_none_iff.mp h

/-- What is read of an input with a line that is too long. -/
lemma read_before {input : Text} {before rest : List Text} {raw : Text}
    (hlines : input.lines = before ++ raw::rest)
    (hbefore : ∀ line ∈ before, line.length < lineLimit) (hraw : lineLimit ≤ raw.length) :
    inputLines input = before.map (Text.dropEnding [Text.ascii '\r']) ∧
      readStop input = some .tooLong := by
  have hlong : ¬ isShort raw = true := by
    rw [isShort_iff]
    omega
  refine ⟨?_,?_⟩
  · rw [inputLines,hlines,List.takeWhile_append_of_pos fun line h => isShort_iff.mpr (hbefore line h),
      List.takeWhile_cons_of_neg hlong,List.append_nil]
  · simp [readStop,hlines,hlong]

/-- Nothing but a line that is too long keeps an input from being read to its end. -/
lemma exists_long {input : Text} (h : readStop input ≠ none) :
    ∃ before raw rest, input.lines = before ++ raw::rest ∧
      (∀ line ∈ before, line.length < lineLimit) ∧ lineLimit ≤ raw.length := by
  have hsome : (input.lines.find? fun line => decide (lineLimit ≤ line.length)).isSome := by
    simpa [readStop_eq_none_iff] using h
  obtain ⟨raw,hfind⟩ := Option.isSome_iff_exists.mp hsome
  obtain ⟨hraw,before,rest,hlines,hbefore⟩ := List.find?_eq_some_iff_append.mp hfind
  exact ⟨before,raw,rest,hlines,by simpa using hbefore,by simpa using hraw⟩

/-- Behind an input that is read to its end another one is read from its start. -/
lemma read_append {a : Text} (h : a.EndsLine) (ha : readStop a = none) (b : Text) :
    inputLines (a ++ b) = inputLines a ++ inputLines b ∧ readStop (a ++ b) = readStop b := by
  have hshort : ∀ line ∈ a.lines, isShort line = true := fun line hline =>
    isShort_iff.mpr (readStop_eq_none_iff.mp ha line hline)
  refine ⟨?_,?_⟩
  · rw [inputLines_of_readStop ha,inputLines,Text.lines_append h,
      List.takeWhile_append_of_pos hshort,List.map_append]
    rfl
  · rw [readStop,Text.lines_append h,List.all_append,List.all_eq_true.mpr hshort,Bool.true_and]
    rfl

/-- Behind a line that is too long nothing is read. -/
lemma read_append_of_long {a : Text} (h : a.EndsLine) (ha : readStop a ≠ none) (b : Text) :
    inputLines (a ++ b) = inputLines a ∧ readStop (a ++ b) = readStop a := by
  obtain ⟨before,raw,rest,hlines,hbefore,hraw⟩ := exists_long ha
  have hlines' : (a ++ b).lines = before ++ raw::(rest ++ b.lines) := by
    rw [Text.lines_append h,hlines,List.append_assoc,List.cons_append]
  obtain ⟨hread,hstop⟩ := read_before hlines hbefore hraw
  obtain ⟨hread',hstop'⟩ := read_before hlines' hbefore hraw
  exact ⟨hread'.trans hread.symm,hstop'.trans hstop.symm⟩

/-- A run over an input is one over its lines, which stops behind them where reading stops. -/
lemma run_uncancelled (p : Pipeline) (s : Stream) (input : Text) :
    run p false s input =
      (runLines p s (inputLines input)).andThen fun t => ⟨t,[],readStop input⟩ := by
  have hread : ∀ r : Run, (r.andThen fun t => ⟨t,[],readStop input⟩) =
      { r with stop := r.stop.or (readStop input) } := by
    intro r
    cases h : r.stop with
    | none => simp [Run.andThen_of_none h]
    | some stop => rw [Run.andThen_of_stop (by simp [h]),Option.some_or,← h]
  rw [hread,run]
  split
  · rename_i h
    rw [h]
    rfl
  · rfl

/-- A cancelled run does no work. It stops as soon as there is a line. -/
lemma run_cancelled (p : Pipeline) (s : Stream) (input : Text) : run p true s input =
    ⟨s,[],if inputLines input = [] then readStop input else some .cancelled⟩ := by
  rw [run]
  split
  · rename_i h
    rw [if_pos h]
  · rename_i h
    rw [if_neg h]
    rfl

lemma run_of_readStop {input : Text} (h : readStop input = none) (p : Pipeline) (s : Stream) :
    run p false s input = runLines p s (inputLines input) := by
  rw [run_uncancelled,h]
  cases hs : (runLines p s (inputLines input)).stop with
  | none => rw [Run.andThen_of_none hs,List.append_nil,← hs]
  | some stop => exact Run.andThen_of_stop (by simp [hs]) _

lemma stop_run_eq_none_iff {p : Pipeline} {s : Stream} {input : Text} :
    (run p false s input).stop = none ↔
      (runLines p s (inputLines input)).stop = none ∧ readStop input = none := by
  rw [run_uncancelled]
  cases h : (runLines p s (inputLines input)).stop with
  | none => simp [Run.andThen_of_none h]
  | some stop =>
    have hsome : (runLines p s (inputLines input)).stop.isSome := by simp [h]
    simp [Run.andThen_of_stop hsome,h]

lemma readStop_ne_line (input : Text) (e : Error) : readStop input ≠ some (.line e) := by
  rw [readStop]
  split <;> simp

/-- Only the work on a line fails with a line. -/
lemma stop_runLines_of_line {p : Pipeline} {cancelled : Bool} {s : Stream} {input : Text} {e : Error}
    (h : (run p cancelled s input).stop = some (.line e)) :
    (runLines p s (inputLines input)).stop = some (.line e) := by
  cases cancelled with
  | true =>
    simp only [run_cancelled] at h
    split at h
    · exact absurd h (readStop_ne_line input e)
    · simp at h
  | false =>
    rw [run_uncancelled] at h
    cases hs : (runLines p s (inputLines input)).stop with
    | none =>
      rw [Run.andThen_of_none hs] at h
      exact absurd h (readStop_ne_line input e)
    | some stop => rwa [Run.andThen_of_stop (by simp [hs]),hs] at h

/-- A run over an input can be cut behind any of its lines. -/
theorem run_append (p : Pipeline) (s : Stream) {a : Text} (h : a.EndsLine) (b : Text) :
    run p false s (a ++ b) = (run p false s a).andThen (run p false · b) := by
  by_cases ha : readStop a = none
  · obtain ⟨hlines,hstop⟩ := read_append h ha b
    rw [run_of_readStop ha,run_uncancelled,hlines,hstop,runLines_append,Run.andThen_assoc]
    simp only [run_uncancelled]
  · obtain ⟨hlines,hstop⟩ := read_append_of_long h ha b
    have hsame : run p false s (a ++ b) = run p false s a := by
      rw [run_uncancelled,run_uncancelled,hlines,hstop]
    have hsome : (run p false s a).stop.isSome :=
      Option.isSome_iff_ne_none.mpr fun hnone => ha (stop_run_eq_none_iff.mp hnone).2
    rw [hsame,Run.andThen_of_stop hsome]

/-- A run stops behind the lines that are read, if none of them fails and the next one is too long. -/
lemma run_of_long {input : Text} {before rest : List Text} {raw : Text}
    (hlines : input.lines = before ++ raw::rest)
    (hbefore : ∀ line ∈ before, line.length < lineLimit) (hraw : lineLimit ≤ raw.length)
    (p : Pipeline) (s : Stream)
    (hok : (runLines p s (before.map (Text.dropEnding [Text.ascii '\r']))).stop = none) :
    run p false s input = ⟨(runLines p s (before.map (Text.dropEnding [Text.ascii '\r']))).stream,
      (runLines p s (before.map (Text.dropEnding [Text.ascii '\r']))).printed,some .tooLong⟩ := by
  obtain ⟨hread,hstop⟩ := read_before hlines hbefore hraw
  rw [run_uncancelled,hread,hstop,Run.andThen_of_none hok,List.append_nil]

/-- Six divided by the first cell, in the second one. -/
def sixths : Pipeline where
  plan := ⟨{ statement := Text.ofString "s[1] = 6//i[0]" },none,
    some (Text.ofString "row[1] = 6//row.int[0]"),none,[],[]⟩
  filter := none
  body := some ⟨Text.ofString "row[1] = 6//row.int[0]",[.store none (some (.int 1))
    (.arith .floorDiv (.int 6) (.cell (some (Text.ofString "int")) (some (.int 0))))]⟩
  afterFilter := none
  projection := []

/-- A line that is just too long. -/
def longLine : Text := List.replicate lineLimit (Text.ascii '1')

lemma length_longLine : longLine.length = lineLimit := List.length_replicate

lemma lines_longLine : longLine.lines = [longLine] := by
  apply Text.lines_of_not_mem
  · intro hnil
    have hlength := length_longLine
    rw [hnil,lineLimit] at hlength
    exact absurd hlength (by norm_num)
  · intro hmem
    exact absurd (List.eq_of_mem_replicate hmem) (by decide)

end CellScript.Stream
