import Mathlib
import CellScript.Proofs.Script.Meaning
import CellScript.Proofs.Script.Store

/-! Two conditions as one. In parentheses both are read as on their own, and the second is looked at
only if the first holds. -/
namespace CellScript.Script

open CellScript.Script.Parser

/-- The code of two conditions as one. -/
def conjunctionCode (p q : Text) : Text :=
  Text.ofString "(" ++ (p ++ (Text.ofString ")and(" ++ (q ++ Text.ofString ")")))

def groupShapes (ss : List Shape) : List Shape :=
  ⟨.punctuation,Text.ofString "("⟩::(ss ++ [⟨.punctuation,Text.ofString ")"⟩])

def conjunctionShapes (ss ts : List Shape) : List Shape :=
  groupShapes ss ++ ⟨.name,Text.ofString "and"⟩::groupShapes ts

lemma laid_group {ss ts : List Shape} {t u : Text} (h : Laid ss t)
    (hl : ∀ l ∈ ss.getLast?, l.Closes) (hu : Laid ts u) :
    Laid (groupShapes ss ++ ts) (Text.ofString "(" ++ (t ++ (Text.ofString ")" ++ u))) := by
  have hclose := laid_before_mark (w := Text.ofString ")") (c := ')') rfl (Or.inl rfl) h hl hu
  rw [groupShapes,List.cons_append,List.append_assoc]
  exact laid_punctuation (c := '(') (by decide) (by decide) (by decide) hclose

lemma laid_conjunction {ss ts : List Shape} {t u : Text} (ht : Laid ss t)
    (hss : ∀ l ∈ ss.getLast?, l.Closes) (hu : Laid ts u) (hts : ∀ l ∈ ts.getLast?, l.Closes) :
    Laid (conjunctionShapes ss ts) (conjunctionCode t u) := by
  have hname : IsName (Text.ofString "and") := fits_of_whole (by decide +kernel)
  have hend : Laid [] [] := .nil (by simp [Blank])
  have hsecond := laid_group hu hts hend
  have hand := laid_name hname hsecond ?_
  · have hfirst := laid_group ht hss hand
    rw [List.append_nil] at hfirst
    rw [conjunctionShapes,conjunctionCode,show Text.ofString ")and(" =
      Text.ofString ")" ++ (Text.ofString "and" ++ Text.ofString "(") by decide]
    simpa using hfirst
  · intro r hr
    rw [head?_runes_of_mark (c := '(') rfl (by decide) r hr]
    exact not_continuesName_of_mark '(' (by decide)

/-- An expression in parentheses is an operand of conjunctions. -/
lemma negation_group {tree : Expr} {ss : List Shape}
    (hss : ∀ ls : List Lexeme, ls.map Lexeme.shape = ss → Yields tree ls) {b : List Lexeme}
    (hb : b.map Lexeme.shape = groupShapes ss) (hf : ∀ l ∈ b, l.shape.Fits) {rest : List Lexeme}
    (hr : Clear afterComparison rest) {d : ℕ} (hd : (b ++ rest).length ≤ d) :
    ∃ e, tree.SameTree e ∧ negation (expr d) (b ++ rest) = some (.paren e,rest) := by
  obtain ⟨o,r,rfl,ho,hinner⟩ := List.map_eq_cons_iff.mp hb
  obtain ⟨u,r,rfl,hu,hclose⟩ := List.map_eq_append_iff.mp hinner
  obtain ⟨c,r,rfl,hc,hnil⟩ := List.map_eq_cons_iff.mp hclose
  obtain rfl : r = [] := List.map_eq_nil_iff.mp hnil
  have hopen : o.text = Text.ofString "(" := congrArg Shape.text ho
  rw [show o::(u ++ [c]) ++ rest = o::(u ++ c::rest) by simp] at hd ⊢
  obtain ⟨e,he,hgroup⟩ := primary_group (hss u hu) (hf o (by simp)) hopen hc hd
  have hleads : o.text ∉ leaders := by
    rw [hopen]
    decide
  have hsigned := signed_of_primary hgroup fun hm => hleads (List.mem_append_right _ hm)
  have hsum := sum_of_product (product_of_signed hsigned (hr.mono (by decide))) (hr.mono (by decide))
  exact ⟨e,he,negation_of_comparison (comparison_of_sum hsum (hr.mono (by decide)))
    fun hm => hleads (List.mem_append_left _ hm)⟩

/-- Two conditions as one compile to the conjunction of their trees. -/
theorem compile_conjunction {p q : Text} {f g : Formula} (hf : Formula.compile p = .ok f)
    (hg : Formula.compile q = .ok g) : ∃ e e', f.expr.SameTree e ∧ g.expr.SameTree e' ∧
      Formula.compile (conjunctionCode p q) =
        .ok ⟨conjunctionCode p q,.and (.paren e) (.paren e')⟩ := by
  obtain ⟨-,-,ls,hls,-⟩ := Formula.compile_eq_ok_iff.mp hf
  obtain ⟨-,-,ms,hms,-⟩ := Formula.compile_eq_ok_iff.mp hg
  have hp := spelled_of_compile hf hls
  have hq := spelled_of_compile hg hms
  have hlaid := laid_conjunction (hp.laid hls) hp.chained.closes_shapes (hq.laid hms)
    hq.chained.closes_shapes
  obtain ⟨ns,hns,hshapes⟩ := hlaid.lex?
  have hfits : ∀ n ∈ ns, n.shape.Fits :=
    fun n hn => hlaid.fits _ (hshapes ▸ List.mem_map_of_mem hn)
  obtain ⟨a,r,rfl,ha,hr⟩ := List.map_eq_append_iff.mp hshapes
  obtain ⟨w,b,rfl,hw,hb⟩ := List.map_eq_cons_iff.mp hr
  have hand : w.text = Text.ofString "and" := congrArg Shape.text hw
  have hshrink := (Sound.negation (Sound.expr (a ++ w::b).length)).shrinks
  obtain ⟨e,he,hfirst⟩ := negation_group (fun _ => yields_of_compile hf hls) ha
    (fun n hn => hfits n (by simp [hn])) (clear_cons (by rw [hand]; decide) b) le_rfl
  have hend : Clear afterComparison [] := by simp [Clear]
  obtain ⟨e',he',hsecond⟩ := negation_group (d := (a ++ w::b).length)
    (fun _ => yields_of_compile hg hms) hb (fun n hn => hfits n (by simp [hn])) hend
    (by simp; omega)
  rw [List.append_nil] at hsecond
  have hword : choose? conjunctions w = some () :=
    choose?_of_mem (by rw [hand]; decide) (by decide)
  have hchain : Reached (negation (expr (a ++ w::b).length)) conjunctions (fun _ => .and)
      (a ++ w::b) (.and (.paren e) (.paren e')) [] :=
    (Reached.start hfirst).step hshrink hword hsecond
  refine ⟨e,e',he,he',Formula.compile_eq_ok_iff.mpr ⟨hlaid.not_blankOnly,rfl,_,hns,?_⟩⟩
  exact disjunction_of_conjunction (hchain.stop (by simp [Clear])) (by simp [Clear])

/-- Two conditions as one hold when both do. Where the first fails, or does not hold, the second is
not looked at. -/
theorem holds_conjunction {f g : Formula} {e e' : Expr} (hf : f.expr.SameTree e)
    (hg : g.expr.SameTree e') (code : Text) (l : Layout) (row : Row) :
    Matched (Error.Alike fun _ _ => False) Eq
      (do if ← f.holds l row then g.holds l row else return false)
      (Formula.holds ⟨code,.and (.paren e) (.paren e')⟩ l row) := by
  have hone : Value.OneToOne fun _ _ : Text.Position => False := ⟨by simp,by simp⟩
  have hscope : Scope.Alike (fun _ _ => False) (fun _ _ => False) l ⟨l,row,[]⟩ ⟨l,row,[]⟩ :=
    ⟨rfl,rfl,rfl,by simp [Row.Swaps],.nil⟩
  simp only [Formula.holds,Formula.value,eval,bind_assoc,pure_bind]
  refine (eval_alike hone hscope _ hf).bind fun v w hvw => ?_
  rw [hvw.seen.truthy]
  cases hv : v.truthy with
  | false =>
    refine .ok ?_
    rw [← hv,hvw.seen.truthy]
  | true =>
    refine (eval_alike hone hscope _ hg).bind fun x y hxy => ?_
    rw [hxy.seen.truthy]
    exact .ok rfl

end CellScript.Script
