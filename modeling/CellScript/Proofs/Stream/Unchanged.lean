import Mathlib
import CellScript.Proofs.Stream.HeaderLine
import CellScript.Proofs.Stream.History

/-! Runs that ask for nothing. Every line is cut into cells and joined again, so what is printed is
what was read, but for the carriage returns at the ends of lines. -/
namespace CellScript

namespace Text

/-- How many carriage returns a line ends with. -/
def returns (line : Text) : ℕ := (line.rtakeWhile (· == ascii '\r')).length

/-- A line without the carriage returns at its end, of which at most so many are left out. -/
def withoutReturns (most : ℕ) (line : Text) : Text := line.take (line.length-min most line.returns)

lemma returns_concat (line : Text) : returns (line ++ [ascii '\r']) = line.returns+1 := by
  simp [returns]

lemma returns_of_getLast? {line : Text} (h : line.getLast? ≠ some (ascii '\r')) :
    line.returns = 0 := by
  induction line using List.reverseRecOn with
  | nil => rfl
  | append_singleton line b _ =>
    have hb : b ≠ ascii '\r' := by simpa using h
    simp [returns,hb]

lemma withoutReturns_zero (line : Text) : withoutReturns 0 line = line := by
  simp [withoutReturns]

lemma withoutReturns_concat (most : ℕ) (line : Text) :
    withoutReturns (most+1) (line ++ [ascii '\r']) = withoutReturns most line := by
  have hle : line.returns ≤ line.length := by
    exact (List.rtakeWhile_suffix _ _).length_le
  have hlen : (line ++ [ascii '\r']).length-min (most+1) (line.returns+1) =
      line.length-min most line.returns := by
    simp only [List.length_append,List.length_singleton]
    omega
  rw [withoutReturns,returns_concat,hlen,List.take_append_of_le_length (by omega)]
  rfl

lemma withoutReturns_of_getLast? {line : Text} (h : line.getLast? ≠ some (ascii '\r'))
    (most : ℕ) : withoutReturns most line = line := by
  simp [withoutReturns,returns_of_getLast? h]

lemma dropEnding_concat (c : UInt8) (t : Text) : dropEnding [c] (t ++ [c]) = t := by
  simp [dropEnding]

lemma dropEnding_of_getLast? {c : UInt8} {t : Text} (h : t.getLast? ≠ some c) :
    dropEnding [c] t = t := by
  rw [dropEnding,if_neg]
  intro hs
  obtain ⟨u,rfl⟩ := List.isSuffixOf_iff_suffix.mp hs
  simp at h

/-- Dropping one carriage return more is dropping one from what is left. -/
lemma withoutReturns_succ (most : ℕ) (line : Text) :
    withoutReturns (most+1) line = withoutReturns most (dropEnding [ascii '\r'] line) := by
  by_cases h : line.getLast? = some (ascii '\r')
  · obtain ⟨u,rfl⟩ := List.getLast?_eq_some_iff.mp h
    rw [withoutReturns_concat,dropEnding_concat]
  · rw [dropEnding_of_getLast? h,withoutReturns_of_getLast? h,withoutReturns_of_getLast? h]

end Text

/-- A run without a statement, without filters and without a selection. -/
structure Options.AsksNothing (o : Options) : Prop where
  statement : Text.blankOnly o.statement = true
  filter : Text.blankOnly o.filter = true
  afterFilter : Text.blankOnly o.afterFilter = true
  select : Text.blankOnly o.select = true

/-- The plan of a run that asks for nothing. -/
def Plan.plain (o : Options) : Plan := ⟨o,none,none,none,[],[]⟩

def Pipeline.plain (o : Options) : Pipeline := ⟨Plan.plain o,none,none,none,[]⟩

lemma Plan.selectors_blank {select : Text} (h : Text.blankOnly select = true) (quoting : Bool) :
    selectors quoting select = [] := by
  have hcomma : Text.ascii ',' ∉ select := by
    intro hm
    rw [Text.not_blankOnly_of_mem (by decide) hm] at h
    exact absurd h Bool.false_ne_true
  have htrim : select.trim = [] := by simpa [Text.blankOnly] using h
  have hone : Text.ofString "," = [Text.ascii ','] := by decide
  rw [selectors,hone,Text.splitOn_of_disjoint (by simp) (List.disjoint_singleton.mpr hcomma)]
  simp [htrim]

lemma Plan.ofOptions_plain {o : Options} (h : o.AsksNothing) : ofOptions o = .ok (plain o) := by
  simp only [ofOptions,stage?,h.statement,h.filter,h.afterFilter,if_true,selectors_blank h.select]
  rfl

lemma Pipeline.compile_plain (o : Options) : compile (Plan.plain o) = .ok (plain o) := rfl

namespace Stream

variable {o : Options}

/-- Without a selection a row is printed as the line that it was read from. -/
lemma text_rowOf {l : Layout} (hl : l.delimiter ≠ []) (raw : Text) :
    (rowOf l raw).text l = Text.dropEnding [Text.ascii '\r'] raw := Text.join_splitOn hl _

lemma emitted_plain {s : Stream} (hs : PastHeader (.plain o) s) (hl : s.layout.delimiter ≠ [])
    (raw : Text) : (lineVerdict (.plain o) s.layout raw).isOk = true ∧
      emitted (.plain o) s raw =
        Text.dropEnding [Text.ascii '\r'] raw ++ [Text.ascii '\n'] := by
  have hverdict : lineVerdict (.plain o) s.layout raw =
      .ok (.printed (Text.dropEnding [Text.ascii '\r'] raw)) := by
    rw [← text_rowOf hl raw]
    rfl
  rw [emitted_of_verdict hs,hverdict]
  exact ⟨rfl,rfl⟩

/-- Data lines are printed as they are read. -/
lemma runLines_plain {s : Stream} (hs : PastHeader (.plain o) s) (hl : s.layout.delimiter ≠ [])
    (ls : List Text) : (runLines (.plain o) s ls).stop = none ∧
      (runLines (.plain o) s ls).printed = ls.flatMap fun raw =>
        Text.dropEnding [Text.ascii '\r'] raw ++ [Text.ascii '\n'] := by
  obtain ⟨hstop,hprinted⟩ := runLines_of_pastHeader hs ls
  have hnone := hstop.mpr fun raw _ => (emitted_plain hs hl raw).1
  refine ⟨hnone,?_⟩
  rw [hprinted hnone,List.flatMap_def]
  exact congrArg List.flatten (List.map_congr_left fun raw _ => (emitted_plain hs hl raw).2)

/-- The header is printed as it is read. -/
lemma runLine_plain (hheader : o.hasHeader = true) (hprint : o.printHeader = true) (raw : Text) :
    runLine (.plain o) (fresh (.plain o)) raw = ⟨⟨headed (.plain o) raw,1,false⟩,
      Text.dropEnding [Text.ascii '\r'] raw ++ [Text.ascii '\n'],none⟩ := by
  have htext : (headerRow (.plain o) raw).text (headed (.plain o) raw) =
      Text.dropEnding [Text.ascii '\r'] raw := by
    rw [text_headerRow]
    exact List.append_nil _
  have houtput : output (.plain o) (headed (.plain o) raw) (headerRow (.plain o) raw) =
      .ok (Text.dropEnding [Text.ascii '\r'] raw) := congrArg Except.ok htext
  have hprocess : process (.plain o) (fresh (.plain o)) raw = (⟨headed (.plain o) raw,1,false⟩,
      .ok (.printed (Text.dropEnding [Text.ascii '\r'] raw))) := by
    refine (process_header (p := .plain o) hheader rfl rfl raw).trans ?_
    rw [show (Pipeline.plain o).plan = .plain o from rfl,houtput,
      show (Plan.plain o).options.printHeader = true from hprint]
    rfl
  rw [runLine,hprocess]
  rfl

/-- A run that asks for nothing prints every line as it is read. -/
lemma runLines_fresh (hheader : o.hasHeader = true → o.printHeader = true) (ls : List Text) :
    (runLines (.plain o) (fresh (.plain o)) ls).stop = none ∧
      (runLines (.plain o) (fresh (.plain o)) ls).printed = ls.flatMap fun raw =>
        Text.dropEnding [Text.ascii '\r'] raw ++ [Text.ascii '\n'] := by
  have hdelimiter : (fresh (.plain o)).layout.delimiter ≠ [] := by
    rw [delimiter_fresh]
    exact separator_ne_nil _
  by_cases hmode : o.hasHeader = true
  · cases ls with
    | nil => exact ⟨rfl,rfl⟩
    | cons raw rest =>
      rw [runLines_cons,runLine_plain hmode (hheader hmode),Run.andThen_of_none rfl,
        List.flatMap_cons]
      obtain ⟨hstop,hprinted⟩ := runLines_plain (o := o) (s := ⟨headed (.plain o) raw,1,false⟩)
        (fun _ => Nat.one_ne_zero) hdelimiter rest
      exact ⟨hstop,congrArg _ hprinted⟩
  · exact runLines_plain (fun hyes => absurd hyes hmode) hdelimiter ls

/-- The lines of an input, as they are read and then cut into cells, lose two carriage returns. -/
lemma printed_plain (ls : List Text) :
    ((ls.map (Text.dropEnding [Text.ascii '\r'])).flatMap fun raw =>
      Text.dropEnding [Text.ascii '\r'] raw ++ [Text.ascii '\n']) =
      ls.flatMap fun line => line.withoutReturns 2 ++ [Text.ascii '\n'] := by
  rw [List.flatMap_map]
  refine List.flatMap_congr fun line _ => ?_
  rw [Text.withoutReturns_succ,Text.withoutReturns_succ,Text.withoutReturns_zero]

/-- A run that asks for nothing and prints its header, if it has one, gives its input back line by
line. At most two carriage returns are left out at the end of a line: one when the input is cut into
lines, and one when the line is cut into cells. The run succeeds when no line is too long to be read, and
otherwise it stops behind the lines in front of the first one that is. -/
theorem run_reproduces {o : Options} (ho : o.AsksNothing)
    (hheader : o.hasHeader = true → o.printHeader = true) (input : Text) :
    ∃ plan p, Plan.ofOptions o = .ok plan ∧ Pipeline.compile plan = .ok p ∧
      ((∀ line ∈ input.lines, line.length < lineLimit) →
        (run p false (fresh plan) input).stop = none ∧
        (run p false (fresh plan) input).printed =
          input.lines.flatMap fun line => line.withoutReturns 2 ++ [Text.ascii '\n']) ∧
      ∀ before raw rest, input.lines = before ++ raw::rest →
        (∀ line ∈ before, line.length < lineLimit) → lineLimit ≤ raw.length →
        (run p false (fresh plan) input).stop = some .tooLong ∧
        (run p false (fresh plan) input).printed =
          before.flatMap fun line => line.withoutReturns 2 ++ [Text.ascii '\n'] := by
  refine ⟨_,_,Plan.ofOptions_plain ho,Pipeline.compile_plain o,fun hshort => ?_,?_⟩
  · have hread : readStop input = none := readStop_eq_none_iff.mpr hshort
    obtain ⟨hstop,hprinted⟩ := runLines_fresh hheader (inputLines input)
    rw [run_of_readStop hread]
    refine ⟨hstop,hprinted.trans ?_⟩
    rw [inputLines_of_readStop hread,printed_plain]
  · intro before raw rest hlines hbefore hraw
    obtain ⟨hstop,hprinted⟩ :=
      runLines_fresh hheader (before.map (Text.dropEnding [Text.ascii '\r']))
    rw [run_of_long hlines hbefore hraw _ _ hstop]
    exact ⟨rfl,hprinted.trans (printed_plain before)⟩

/-- A delimiter of two characters that overlaps itself, three carriage returns at the end of the
header, an empty line, and a last line without its line feed. -/
theorem run_reproduces_overlapping :
    let o : Options := { delimiter := Text.ofString "aa", select := Text.ofString " \t" }
    o.AsksNothing ∧ ∃ plan p, Plan.ofOptions o = .ok plan ∧ Pipeline.compile plan = .ok p ∧
      (run p false (fresh plan) (Text.ofString "xaaay\r\r\r\n\naaa")).stop = none ∧
      (run p false (fresh plan) (Text.ofString "xaaay\r\r\r\n\naaa")).printed =
        Text.ofString "xaaay\r\n\naaa\n" := by
  intro o
  have ho : o.AsksNothing := ⟨by decide,by decide,by decide,by decide +kernel⟩
  obtain ⟨plan,p,hplan,hp,hshort,-⟩ :=
    run_reproduces ho (fun _ => rfl) (Text.ofString "xaaay\r\r\r\n\naaa")
  obtain ⟨hstop,hprinted⟩ := hshort (by decide +kernel)
  exact ⟨ho,plan,p,hplan,hp,hstop,hprinted.trans (by decide +kernel)⟩

/-- Not every run that asks for nothing gives its input back. A cancelled one fails and prints nothing, and
so does one over a line that is too long. -/
theorem run_reproduces_nothing :
    let o : Options := {}
    o.AsksNothing ∧ (o.hasHeader = true → o.printHeader = true) ∧
      ∃ plan p, Plan.ofOptions o = .ok plan ∧ Pipeline.compile plan = .ok p ∧
        (run p true (fresh plan) (Text.ofString "a\n")).stop = some .cancelled ∧
        (run p true (fresh plan) (Text.ofString "a\n")).printed = [] ∧
        (run p false (fresh plan) longLine).stop = some .tooLong ∧
        (run p false (fresh plan) longLine).printed = [] := by
  intro o
  have ho : o.AsksNothing := ⟨by decide,by decide,by decide,by decide⟩
  have hlines : longLine.lines = [] ++ longLine::[] := lines_longLine
  have hlong := run_of_long hlines (by simp) length_longLine.ge (Pipeline.plain o)
    (fresh (Plan.plain o)) rfl
  refine ⟨ho,fun _ => rfl,Plan.plain o,Pipeline.plain o,Plan.ofOptions_plain ho,
    Pipeline.compile_plain o,by decide +kernel,by decide +kernel,?_,?_⟩
  · rw [hlong]
  · rw [hlong]
    rfl

end Stream
end CellScript
