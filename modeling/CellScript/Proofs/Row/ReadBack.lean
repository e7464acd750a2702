import Mathlib
import CellScript.Proofs.Number.Decimal
import CellScript.Proofs.Script.Statement
import CellScript.Proofs.Text.Blank
import CellScript.Proofs.Text.Lines
import CellScript.Row.View

/-! What is written is read back: words from their cells, and cells from their line. -/
namespace CellScript

lemma Text.isVisible_of_mem_ofInt {i : ℤ} {b : UInt8} (h : b ∈ Text.ofInt i) : Text.IsVisible b := by
  rcases Text.mem_ofInt h with rfl | hb
  · decide
  · obtain ⟨hlow,hhigh⟩ := Text.isDigit_iff.mp hb
    exact ⟨by omega,by omega⟩

section

variable {before behind : Text} (hbefore : before.IsSpace) (hbehind : behind.IsSpace) (n : Int64)

include hbefore hbehind

/-- A word is read from its decimal form with white space around it. -/
theorem Number.readInt_surrounded :
    Number.readInt (before ++ (Text.ofInt n.toInt ++ behind)).trim = .ok n := by
  rw [Text.trim_surrounded hbefore hbehind fun b => Text.isVisible_of_mem_ofInt,readInt_ofInt]

lemma View.read_surrounded (source : Row.Source) :
    View.int.read source (before ++ (Text.ofInt n.toInt ++ behind)) = .ok (.int n) := by
  rw [View.read,Number.readInt_surrounded hbefore hbehind]

lemma Script.Function.int_surrounded :
    Function.int.apply [.str (before ++ (Text.ofInt n.toInt ++ behind))] = .ok (.int n) := by
  change toInt (.str (before ++ (Text.ofInt n.toInt ++ behind))) = _
  rw [toInt,Number.readInt_surrounded hbefore hbehind]

end

lemma Text.surrounded_nil (t : Text) : ([] : Text) ++ (t ++ []) = t := by
  rw [List.nil_append,List.append_nil]

/-- A cell with white space around a word reads as the word. -/
lemma View.get_surrounded {before behind : Text} (hbefore : before.IsSpace) (hbehind : behind.IsSpace)
    {n : Int64} {l : Layout} {r : Row} {key : Key}
    (h : r.get l key = .ok (before ++ (Text.ofInt n.toInt ++ behind))) :
    View.int.get l r key = .ok (.int n) := by
  rw [View.get,h]
  exact View.read_surrounded hbefore hbehind n (.cell key)

/-- The whole number of the text of a word is the word. -/
lemma Script.eval_int_str {s : Scope} {e : Expr} {n : Int64} (he : eval s e = .ok (.int n)) :
    eval s (.call "int" [.call "str" [e]]) = .ok (.int n) := by
  have hstr : eval s (.call "str" [e]) = .ok (.str (Text.ofInt n.toInt)) :=
    eval_call (f := .str) rfl (evalAll_singleton he)
  have hint := Function.int_surrounded Text.isSpace_nil Text.isSpace_nil n
  rw [Text.surrounded_nil] at hint
  rw [eval_call (f := .int) rfl (evalAll_singleton hstr),applyFunction,hint]

/-- A word that is stored in a cell is what the cell reads as, wherever the key puts it. So is any word
whose decimal form stands in a cell with white space around it, and a word is the whole number of its own
text. -/
theorem word_read_back (n : Int64) :
    (∀ (l : Layout) (r r' : Row) (key : Key), r.set l key (.int n) = .ok r' →
      View.int.get l r' key = .ok (.int n)) ∧
    (∀ before behind : Text, before.IsSpace → behind.IsSpace →
      ∀ (l : Layout) (r : Row) (key : Key),
        r.get l key = .ok (before ++ (Text.ofInt n.toInt ++ behind)) →
        View.int.get l r key = .ok (.int n)) ∧
    ∀ (s : Script.Scope) (e : Script.Expr), Script.eval s e = .ok (.int n) →
      Script.eval s (.call "int" [.call "str" [e]]) = .ok (.int n) := by
  refine ⟨fun l r r' key hset => ?_,?_,fun s e => Script.eval_int_str⟩
  · have hget : r'.get l key = .ok (Text.ofInt n.toInt) := Row.get_set rfl hset
    rw [← Text.surrounded_nil (Text.ofInt n.toInt)] at hget
    exact View.get_surrounded Text.isSpace_nil Text.isSpace_nil hget
  · exact fun before behind hbefore hbehind l r key => View.get_surrounded hbefore hbehind

/-- The least word: behind the cells of a row, in a cell with a no-break space, and as a text. -/
theorem word_read_back_least :
    let l : Layout := .new [] ","
    let n := Int64.minValue
    (∃ r', (Row.ofCells ["a"]).set l (.index 1) (.int n) = .ok r' ∧
      View.int.get l r' (.index 1) = .ok (.int n)) ∧
    View.int.get l (Row.ofCells ["\u00A0\t-9223372036854775808\n"]) (.index 0) = .ok (.int n) ∧
    Script.eval { layout := l, row := .ofCells [] } (.call "int" [.call "str" [.int n]]) =
      .ok (.int n) := by
  obtain ⟨hset,hcell,hcall⟩ := word_read_back Int64.minValue
  refine ⟨⟨_,rfl,hset _ (Row.ofCells ["a"]) _ (.index 1) rfl⟩,?_,hcall _ _ rfl⟩
  exact hcell "\u00A0\t" "\n" (by decide +kernel) (by decide +kernel) _ _ _ (by decide +kernel)

/-- A line made of cells that share no byte with the delimiter is cut into those cells again. -/
theorem parse_text {l : Layout} {r : Row} (hdelimiter : l.delimiter ≠ []) (hcells : r.cells ≠ [])
    (h : ∀ c ∈ r.cells, ∀ b ∈ c, b ∉ l.delimiter) :
    Row.parse l (r.text l) = .ofCells r.cells := by
  have hapart : ∀ c ∈ r.cells, c.Disjoint l.delimiter := fun c hc b => h c hc b
  rw [Row.parse,Row.text,Text.splitOn_join hdelimiter hcells hapart]

/-- Empty cells under a delimiter that overlaps itself. -/
theorem parse_text_colons :
    let l : Layout := .new [] "::"
    let r : Row := .ofCells ["","a","",""]
    r.text l = "::a::::" ∧ Row.parse l "::a::::" = .ofCells ["","a","",""] :=
  ⟨rfl,parse_text (l := .new [] "::") (r := .ofCells ["","a","",""]) (by decide) (by decide)
    (by decide +kernel)⟩

end CellScript
