import Mathlib
import CellScript.Proofs.Stream.Resume

/-! Data lines do not influence each other: what a line gives depends on the header and on the line
itself, whatever lines came between them. -/
namespace CellScript.Stream

/-- The state after lines that are worked on one by one, whether they fail or not. -/
def advance (p : Pipeline) (s : Stream) (ls : List Text) : Stream :=
  ls.foldl (fun s raw => (process p s raw).1) s

/-- What a line gives, without its number. -/
def verdict : Except Error Outcome → Except (Stage × Script.Error) Outcome
  | .ok outcome => .ok outcome
  | .error e => .error (e.stage,e.cause)

/-- What a data line gives under a layout. -/
def lineVerdict (p : Pipeline) (layout : Layout) (raw : Text) :
    Except (Stage × Script.Error) Outcome :=
  processRow p layout (rowOf layout raw)

/-- No header is to come any more. -/
def PastHeader (p : Pipeline) (s : Stream) : Prop :=
  p.plan.options.hasHeader = true → s.line ≠ 0

lemma pastHeader_process (p : Pipeline) (s : Stream) (raw : Text) :
    PastHeader p (process p s raw).1 := by
  intro _
  rw [(line_process p s raw).1]
  omega

/-- The work on a data line: it counts, and it leaves the layout as it is. -/
lemma process_of_pastHeader {p : Pipeline} {s : Stream} (h : PastHeader p s) (raw : Text) :
    process p s raw = ({ s with line := s.line+1 },match lineVerdict p s.layout raw with
      | .ok outcome => .ok outcome
      | .error (stage,cause) => .error ⟨s.line+1,stage,cause⟩) := by
  have hdata : (p.plan.options.hasHeader && s.line+1 == 1) = false := by
    simpa [PastHeader] using h
  rw [process]
  simp only [hdata,Bool.false_eq_true,if_false,lineVerdict]
  rcases processRow p s.layout (rowOf s.layout raw) with ⟨stage,cause⟩ | outcome <;> rfl

lemma verdict_process {p : Pipeline} {s : Stream} (h : PastHeader p s) (raw : Text) :
    verdict (process p s raw).2 = lineVerdict p s.layout raw := by
  rw [process_of_pastHeader h]
  rcases lineVerdict p s.layout raw with ⟨stage,cause⟩ | outcome <;> rfl

/-- Data lines leave the layout as it is. -/
lemma layout_advance {p : Pipeline} {s : Stream} (h : PastHeader p s) (ls : List Text) :
    (advance p s ls).layout = s.layout ∧ PastHeader p (advance p s ls) := by
  induction ls generalizing s with
  | nil => exact ⟨rfl,h⟩
  | cons raw rest ih =>
    obtain ⟨hlayout,hpast⟩ := ih (pastHeader_process p s raw)
    refine ⟨hlayout.trans ?_,hpast⟩
    rw [process_of_pastHeader h]

lemma verdict_process_advance {p : Pipeline} {s : Stream} (h : PastHeader p s) (ls : List Text)
    (raw : Text) : verdict (process p (advance p s ls) raw).2 = lineVerdict p s.layout raw := by
  obtain ⟨hlayout,hpast⟩ := layout_advance h ls
  rw [verdict_process hpast,hlayout]

/-- What is printed for a line in a state. -/
def emitted (p : Pipeline) (s : Stream) (raw : Text) : Text :=
  match (process p s raw).2 with
  | .ok outcome => outcome.print
  | .error _ => []

lemma emitted_of_verdict {p : Pipeline} {s : Stream} (h : PastHeader p s) (raw : Text) :
    emitted p s raw = match lineVerdict p s.layout raw with
      | .ok outcome => outcome.print
      | .error _ => [] := by
  rw [emitted,process_of_pastHeader h]
  rcases lineVerdict p s.layout raw with ⟨stage,cause⟩ | outcome <;> rfl

/-- A run over data lines is the work on each of them by itself. -/
lemma runLines_of_pastHeader {p : Pipeline} {s : Stream} (h : PastHeader p s) (ls : List Text) :
    ((runLines p s ls).stop = none ↔ ∀ l ∈ ls, (lineVerdict p s.layout l).isOk = true) ∧
      ((runLines p s ls).stop = none →
        (runLines p s ls).printed = (ls.map (emitted p s)).flatten) := by
  induction ls generalizing s with
  | nil => simp [runLines]
  | cons raw rest ih =>
    have hpast : PastHeader p { s with line := s.line+1 } := fun _ => Nat.succ_ne_zero _
    obtain ⟨hstop,hprinted⟩ := ih hpast
    have hsame : emitted p { s with line := s.line+1 } = emitted p s := by
      funext l
      rw [emitted_of_verdict hpast,emitted_of_verdict h]
    rw [hsame] at hprinted
    rw [runLines,process_of_pastHeader h,List.map_cons,emitted_of_verdict h]
    rcases hv : lineVerdict p s.layout raw with ⟨stage,cause⟩ | outcome
    · simp [hv,Except.isOk,Except.toBool]
    · refine ⟨by simpa [hv,Except.isOk,Except.toBool] using hstop,?_⟩
      intro hnone
      simp [hprinted hnone]

/-- The lines that a stream starts with before its data: one header line, or none. -/
def headerLines (p : Pipeline) (header : Text) : List Text :=
  if p.plan.options.hasHeader then [header] else []

lemma pastHeader_headerLines (p : Pipeline) (s : Stream) (header : Text) :
    PastHeader p (advance p s (headerLines p header)) := by
  rw [headerLines]
  split
  · exact pastHeader_process p s header
  · rename_i hno
    exact fun hyes => absurd hyes hno

lemma stream_runLines {p : Pipeline} {s : Stream} {ls : List Text}
    (h : (runLines p s ls).stop = none) : (runLines p s ls).stream = advance p s ls := by
  induction ls generalizing s with
  | nil => rfl
  | cons raw rest ih =>
    rw [runLines] at h ⊢
    change _ = advance p (process p s raw).1 rest
    rcases hp : process p s raw with ⟨t,error | outcome⟩
    · simp [hp] at h
    · rw [hp] at h
      exact ih h

/-- A run over a header and data lines: none fails if the header does not fail and no data line does,
and then they are printed one after the other. -/
lemma runLines_headerLines (p : Pipeline) (s : Stream) (header : Text) (data : List Text) :
    ((runLines p s (headerLines p header ++ data)).stop = none ↔
      (runLines p s (headerLines p header)).stop = none ∧ ∀ l ∈ data,
        (lineVerdict p (advance p s (headerLines p header)).layout l).isOk = true) ∧
    ((runLines p s (headerLines p header ++ data)).stop = none →
      (runLines p s (headerLines p header ++ data)).printed =
        (runLines p s (headerLines p header)).printed ++
          (data.map (emitted p (advance p s (headerLines p header)))).flatten) := by
  rw [runLines_append]
  cases h : (runLines p s (headerLines p header)).stop with
  | some stop =>
    rw [Run.andThen_of_stop (by simp [h])]
    simp [h]
  | none =>
    obtain ⟨hstop,hprinted⟩ := runLines_of_pastHeader (pastHeader_headerLines p s header) data
    rw [Run.andThen_of_none h,stream_runLines h]
    exact ⟨by simpa using hstop,fun hnone => by rw [hprinted hnone]⟩

/-- After the header, a line gives the same whatever lines came before it, failed ones included. So
the data lines of an input on which no line fails can be put in any order: none of them fails, and
what is printed for each of them moves along with it. -/
theorem data_lines_independent (p : Pipeline) (start : Stream) (header : Text) :
    let s := advance p start (headerLines p header)
    (∀ before before' line, verdict (process p (advance p s before) line).2 =
      verdict (process p (advance p s before') line).2) ∧
    ∀ input input' data data', inputLines input = headerLines p header ++ data →
      inputLines input' = headerLines p header ++ data' → (run p false start input).stop = none →
      (input'.lines.Perm input.lines →
        data'.Perm data ∧ ∀ line ∈ input'.lines, line.length < lineLimit) ∧
      (data'.Perm data → (∀ line ∈ input'.lines, line.length < lineLimit) →
        (run p false start input').stop = none ∧
        (run p false start input).printed =
          (runLines p start (headerLines p header)).printed ++ (data.map (emitted p s)).flatten ∧
        (run p false start input').printed =
          (runLines p start (headerLines p header)).printed ++ (data'.map (emitted p s)).flatten) := by
  intro s
  refine ⟨?_,?_⟩
  · intro before before' line
    have hpast := pastHeader_headerLines p start header
    rw [verdict_process_advance hpast,verdict_process_advance hpast]
  · intro input input' data data' hinput hinput' hstop
    have hread := (stop_run_eq_none_iff.mp hstop).2
    refine ⟨fun hlines => ?_,fun hperm hshort => ?_⟩
    · have hshort : ∀ line ∈ input'.lines, line.length < lineLimit := fun line hline =>
        readStop_eq_none_iff.mp hread line (hlines.mem_iff.mp hline)
      have hall := hlines.map (Text.dropEnding [Text.ascii '\r'])
      rw [← inputLines_of_readStop hread,
        ← inputLines_of_readStop (readStop_eq_none_iff.mpr hshort),hinput,hinput'] at hall
      exact ⟨(List.perm_append_left_iff _).mp hall,hshort⟩
    · rw [run_of_readStop hread,hinput] at hstop
      rw [run_of_readStop hread,run_of_readStop (readStop_eq_none_iff.mpr hshort),hinput,hinput']
      obtain ⟨hiff,hprinted⟩ := runLines_headerLines p start header data
      obtain ⟨hiff',hprinted'⟩ := runLines_headerLines p start header data'
      obtain ⟨hheader,hdata⟩ := hiff.mp hstop
      have hstop' := hiff'.mpr ⟨hheader,fun l hl => hdata l (hperm.mem_iff.mp hl)⟩
      exact ⟨hstop',hprinted hstop,hprinted' hstop'⟩

/-- A line that failed leaves no trace, and two lines can be exchanged. -/
theorem data_lines_independent_sixths :
    let s := advance sixths (fresh sixths.plan) [Text.ofString "n"]
    verdict (process sixths (advance sixths s [Text.ofString "0",Text.ofString "1"])
      (Text.ofString "2")).2 = verdict (process sixths (advance sixths s []) (Text.ofString "2")).2 ∧
    (run sixths false (fresh sixths.plan) (Text.ofString "n\n2\n3\n")).stop = none ∧
    (run sixths false (fresh sixths.plan) (Text.ofString "n\n3\n2\n")).printed =
      Text.ofString "n\n3,2\n2,3\n" := by
  obtain ⟨hsame,horder⟩ :=
    data_lines_independent sixths (fresh sixths.plan) (Text.ofString "n")
  have hstop : (run sixths false (fresh sixths.plan) (Text.ofString "n\n2\n3\n")).stop = none := by
    decide +kernel
  have hlines : (Text.ofString "n\n3\n2\n").lines.Perm (Text.ofString "n\n2\n3\n").lines := by
    decide +kernel
  obtain ⟨hmoved,hprints⟩ := horder _ (Text.ofString "n\n3\n2\n")
    [Text.ofString "2",Text.ofString "3"] [Text.ofString "3",Text.ofString "2"]
    (by decide +kernel) (by decide +kernel) hstop
  obtain ⟨hperm,hshort⟩ := hmoved hlines
  refine ⟨hsame _ _ _,hstop,?_⟩
  rw [(hprints hperm hshort).2.2]
  decide +kernel

end CellScript.Stream
