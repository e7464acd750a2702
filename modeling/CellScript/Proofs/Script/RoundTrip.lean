import Mathlib
import CellScript.Proofs.Script.Written

/-! Every tree of the grammar is read back from its words. -/
namespace CellScript.Script

open CellScript.Script.Parser

/-- Lexemes with the given texts. -/
structure Carries (ls : List Lexeme) (ws : List Text) : Prop where
  texts : ls.map (·.text) = ws
  fits : ∀ l ∈ ls, l.shape.Fits

namespace Carries

lemma nil_iff {ls : List Lexeme} (h : Carries ls []) : ls = [] := List.map_eq_nil_iff.mp h.texts

lemma append {ls : List Lexeme} {u v : List Text} (h : Carries ls (u ++ v)) :
    ∃ a b, ls = a ++ b ∧ Carries a u ∧ Carries b v := by
  obtain ⟨a,b,rfl,ha,hb⟩ := List.map_eq_append_iff.mp h.texts
  exact ⟨a,b,rfl,⟨ha,fun l hl => h.fits l (by simp [hl])⟩,⟨hb,fun l hl => h.fits l (by simp [hl])⟩⟩

lemma cons {ls : List Lexeme} {w : Text} {v : List Text} (h : Carries ls (w::v)) :
    ∃ l b, ls = l::b ∧ l.text = w ∧ l.shape.Fits ∧ Carries b v := by
  obtain ⟨l,b,rfl,hl,hb⟩ := List.map_eq_cons_iff.mp h.texts
  exact ⟨l,b,rfl,hl,h.fits l (by simp),hb,fun m hm => h.fits m (by simp [hm])⟩

lemma joined {ls : List Lexeme} {w : Text} {u v : List Text} (h : Carries ls (u ++ w::v)) :
    ∃ a l b, ls = a ++ l::b ∧ Carries a u ∧ l.text = w ∧ l.shape.Fits ∧ Carries b v := by
  obtain ⟨a,b,rfl,ha,hb⟩ := h.append
  obtain ⟨l,c,rfl,hl,hf,hc⟩ := hb.cons
  exact ⟨a,l,c,rfl,ha,hl,hf,hc⟩

lemma single {ls : List Lexeme} {w : Text} (h : Carries ls [w]) :
    ∃ l, ls = [l] ∧ l.text = w ∧ l.shape.Fits := by
  obtain ⟨l,b,rfl,hl,hf,hb⟩ := h.cons
  rw [hb.nil_iff]
  exact ⟨l,rfl,hl,hf⟩

end Carries

/-- A parser that reads an expression from lexemes, whatever follows them, as long as it is none of
some words. -/
def Reads (p : Parser Expr) (barred : List Text) (e : Expr) (ls : List Lexeme) : Prop :=
  ∀ rest, Clear barred rest → ∃ e', e.SameTree e' ∧ p (ls ++ rest) = some (e',rest)

/-- A chain of operators that comes as far as an expression. -/
def Gains {β : Type} (operand : Parser Expr) (operators : List (Text × β))
    (join : β → Expr → Expr → Expr) (barred : List Text) (e : Expr) (ls : List Lexeme) : Prop :=
  ∀ rest, Clear barred rest →
    ∃ e', e.SameTree e' ∧ Reached operand operators join (ls ++ rest) e' rest

section Chain

variable {β : Type} {operand : Parser Expr} {operators : List (Text × β)}
  {join : β → Expr → Expr → Expr} {barred : List Text}

lemma Reads.gains {e : Expr} {ls : List Lexeme} (h : Reads operand barred e ls) :
    Gains operand operators join barred e ls := by
  intro rest hr
  obtain ⟨e',he,hp⟩ := h rest hr
  exact ⟨e',he,.start hp⟩

lemma Gains.reads {e : Expr} {ls : List Lexeme} (h : Gains operand operators join barred e ls) :
    Reads (chain operand operators join) (operators.map (·.1) ++ barred) e ls := by
  intro rest hr
  obtain ⟨e',he,hp⟩ := h rest (hr.mono (by simp))
  exact ⟨e',he,hp.stop (hr.mono (by simp))⟩

lemma Gains.step (hs : Shrinks operand) {a b : Expr} {u v : List Lexeme} {w : Lexeme} {op : β}
    (ha : Gains operand operators join barred a u) (hb : Reads operand barred b v)
    (hw : choose? operators w = some op) (hbar : w.text ∉ barred)
    (hj : ∀ a' b', a.SameTree a' → b.SameTree b' → (join op a b).SameTree (join op a' b')) :
    Gains operand operators join barred (join op a b) (u ++ w::v) := by
  intro rest hr
  obtain ⟨b',hbb,hpb⟩ := hb rest hr
  obtain ⟨a',haa,hpa⟩ := ha (w::(v ++ rest)) (by simpa [Clear] using hbar)
  refine ⟨join op a' b',hj a' b' haa hbb,?_⟩
  rw [List.append_assoc,List.cons_append]
  exact hpa.step hs hw hpb

end Chain

/-- The words that may not follow an operand, a product, and so on: they would go on with it. -/
def afterOperand : List Text := [Text.ofString "("]
def afterProduct : List Text := products.map (·.1) ++ afterOperand
def afterSum : List Text := sums.map (·.1) ++ afterProduct
def afterComparison : List Text := comparisons.map (·.1) ++ afterSum
def afterConjunction : List Text := conjunctions.map (·.1) ++ afterComparison
def afterExpression : List Text := disjunctions.map (·.1) ++ afterConjunction

/-- What the level of an expression makes of its lexemes. -/
def OwnLevel (d : ℕ) (e : Expr) (ls : List Lexeme) : Prop :=
  match e.level with
  | 0 => Gains (conjunction (expr d)) disjunctions (fun _ => .or) afterConjunction e ls
  | 1 => Gains (negation (expr d)) conjunctions (fun _ => .and) afterComparison e ls
  | 2 => Reads (negation (expr d)) afterComparison e ls
  | 3 => Reads (comparison (expr d)) afterComparison e ls
  | 4 => Gains (product (expr d)) sums .arith afterProduct e ls
  | 5 => Gains (signed (expr d)) products .arith afterOperand e ls
  | 6 => Reads (signed (expr d)) afterOperand e ls
  | _ => Reads (primary (expr d)) afterOperand e ls

/-- What all levels that are loose enough make of the lexemes of an expression. -/
structure Understood (d : ℕ) (e : Expr) (ls : List Lexeme) : Prop where
  signed : 6 ≤ e.level → Reads (signed (expr d)) afterOperand e ls
  product : 5 ≤ e.level → Gains (Parser.signed (expr d)) products .arith afterOperand e ls
  sum : 4 ≤ e.level → Gains (Parser.product (expr d)) sums .arith afterProduct e ls
  negation : 2 ≤ e.level → Reads (negation (expr d)) afterComparison e ls
  conjunction : 1 ≤ e.level →
    Gains (Parser.negation (expr d)) conjunctions (fun _ => .and) afterComparison e ls
  disjunction : Gains (Parser.conjunction (expr d)) disjunctions (fun _ => .or) afterConjunction e ls

/-- How the lexemes of an expression start: none but a negation starts with a negation, and an
operand starts with no sign either. -/
structure Headed (e : Expr) (ls : List Lexeme) : Prop where
  nonempty : ls ≠ []
  negation : 3 ≤ e.level → Clear (negations.map (·.1)) ls
  operand : 7 ≤ e.level → Clear (signs.map (·.1)) ls

lemma Expr.level_le (e : Expr) : e.level ≤ 7 := by
  cases e with
  | arith op a b => cases op <;> simp [level,arithLevel]
  | _ => simp [level]

/-- An expression passes from its own level through all looser ones. -/
lemma OwnLevel.understood {d : ℕ} {e : Expr} {ls : List Lexeme} (h : OwnLevel d e ls)
    (hh : Headed e ls) : Understood d e ls := by
  obtain ⟨l,ls,rfl⟩ := List.exists_cons_of_ne_nil hh.nonempty
  have hle := e.level_le
  unfold OwnLevel at h
  have hsigned : 6 ≤ e.level → Reads (Parser.signed (expr d)) afterOperand e (l::ls) := by
    intro hl
    rcases (by omega : e.level = 6 ∨ e.level = 7) with hl | hl
    · simpa [hl] using h
    · have hp : Reads (primary (expr d)) afterOperand e (l::ls) := by simpa [hl] using h
      intro rest hr
      obtain ⟨e',he,hx⟩ := hp rest hr
      exact ⟨e',he,signed_of_primary hx (hh.operand hl.ge l rfl)⟩
  have hproduct : 5 ≤ e.level → Gains (Parser.signed (expr d)) products .arith afterOperand e
      (l::ls) := by
    intro hl
    rcases (by omega : e.level = 5 ∨ 6 ≤ e.level) with hl | hl
    · simpa [hl] using h
    · exact (hsigned hl).gains
  have hsum : 4 ≤ e.level → Gains (Parser.product (expr d)) sums .arith afterProduct e
      (l::ls) := by
    intro hl
    rcases (by omega : e.level = 4 ∨ 5 ≤ e.level) with hl | hl
    · simpa [hl] using h
    · exact (hproduct hl).reads.gains
  have hcomparison : 3 ≤ e.level → Reads (comparison (expr d)) afterComparison e (l::ls) := by
    intro hl
    rcases (by omega : e.level = 3 ∨ 4 ≤ e.level) with hl | hl
    · simpa [hl] using h
    · intro rest hr
      obtain ⟨e',he,hx⟩ := (hsum hl).reads rest (hr.mono (by simp [afterComparison,afterSum]))
      exact ⟨e',he,comparison_of_sum hx (hr.mono (by simp [afterComparison]))⟩
  have hnegation : 2 ≤ e.level → Reads (Parser.negation (expr d)) afterComparison e (l::ls) := by
    intro hl
    rcases (by omega : e.level = 2 ∨ 3 ≤ e.level) with hl | hl
    · simpa [hl] using h
    · intro rest hr
      obtain ⟨e',he,hx⟩ := hcomparison hl rest hr
      exact ⟨e',he,negation_of_comparison hx (hh.negation hl l rfl)⟩
  have hconjunction : 1 ≤ e.level → Gains (Parser.negation (expr d)) conjunctions (fun _ => .and)
      afterComparison e (l::ls) := by
    intro hl
    rcases (by omega : e.level = 1 ∨ 2 ≤ e.level) with hl | hl
    · simpa [hl] using h
    · exact (hnegation hl).gains
  refine ⟨hsigned,hproduct,hsum,hnegation,hconjunction,?_⟩
  rcases (by omega : e.level = 0 ∨ 1 ≤ e.level) with hl | hl
  · simpa [hl] using h
  · exact (hconjunction hl).reads.gains

lemma Understood.reads_expr {d : ℕ} {e : Expr} {ls : List Lexeme} (h : Understood d e ls) :
    Reads (expr (d+1)) afterExpression e ls :=
  h.disjunction.reads

lemma clear_append {words : List Text} {u : List Lexeme} (hne : u ≠ []) (h : Clear words u)
    (v : List Lexeme) : Clear words (u ++ v) := by
  obtain ⟨l,u,rfl⟩ := List.exists_cons_of_ne_nil hne
  exact h

lemma clear_cons {words : List Text} {l : Lexeme} (h : l.text ∉ words) (ls : List Lexeme) :
    Clear words (l::ls) := by
  simpa [Clear] using h

/-- A lexeme of a kind that no sign and no negation has. -/
lemma not_mem_leaders {l : Lexeme} (hf : l.shape.Fits) (hk : l.kind = .int ∨ l.kind = .string) :
    l.text ∉ leaders := by
  intro hm
  have hkinds := kindsOf_joints.kind_mem hf
    (List.mem_append_left _ (List.mem_append_right _ (show l.shape.text ∈ leaders from hm)))
  have hlk : l.shape.kind = l.kind := rfl
  rw [hlk] at hkinds
  rcases hk with hk | hk <;> simp [hk] at hkinds

lemma kind_of_digits {l : Lexeme} {n : ℤ} (hn : 0 ≤ n) (hf : l.shape.Fits)
    (ht : l.text = Text.ofInt n) : l.kind = .int := by
  obtain ⟨m,rfl⟩ := Int.eq_ofNat_of_zero_le hn
  have hd := fits_of_isDecimal (Text.isDecimal_ofNat m)
  have hx := Shape.kind_of_text (s := ⟨.int,Text.ofNat m⟩) hd
  exact Shape.kind_eq hf ht hx

lemma kind_of_quoted {l : Lexeme} {t : Text} (hf : l.shape.Fits) (ht : l.text = quoteLiteral t) :
    l.kind = .string :=
  Shape.kind_eq hf ht (Shape.kind_of_text (s := ⟨.string,quoteLiteral t⟩) (fits_quoteLiteral t))

lemma kind_of_name {l : Lexeme} {w : Text} (hw : IsName w) (hf : l.shape.Fits) (ht : l.text = w) :
    l.kind = .name :=
  Shape.kind_eq hf ht (Shape.kind_of_text (s := ⟨.name,w⟩) hw)

lemma not_mem_leaders_of_identifier {w : Text} (hw : IsIdentifier w) : w ∉ leaders := by
  intro hm
  obtain ⟨hn,hr⟩ := hw
  have hcases : ∀ w ∈ leaders, w ∈ reserved ∨
      (nextLexeme? (Text.runes w)).map (·.1) = some LexemeKind.operator := by decide +kernel
  rcases hcases w hm with h | h
  · exact hr h
  · rw [Shape.kind_of_text (s := ⟨.name,w⟩) hn] at h
    simp at h

/-- The first lexeme of an operand is neither a sign nor a negation. -/
lemma Headed.of_word {e : Expr} {l : Lexeme} {ls : List Lexeme} (h : l.text ∉ leaders) :
    Headed e (l::ls) := by
  refine ⟨by simp,fun _ => clear_cons ?_ ls,fun _ => clear_cons ?_ ls⟩
  · exact fun hm => h (List.mem_append_left _ hm)
  · exact fun hm => h (List.mem_append_right _ hm)

lemma Headed.append {a e : Expr} {u : List Lexeme} (h : Headed a u) (v : List Lexeme)
    (he : 3 ≤ e.level → 3 ≤ a.level) (he' : e.level < 7) : Headed e (u ++ v) := by
  refine ⟨by simp [h.nonempty],fun hl => clear_append h.nonempty (h.negation (he hl)) v,?_⟩
  intro hl
  omega

/-- How the lexemes of a written expression start. -/
theorem headed_of_written : ∀ (e : Expr) {ws : List Text} {ls : List Lexeme}, e.Grammatical →
    e.Written ws → Carries ls ws → Headed e ls
  | .or a b,_,_,hg,h,hc => by
    simp only [Expr.Grammatical] at hg
    simp only [Expr.Written] at h
    obtain ⟨u,w,v,rfl,-,ha,-⟩ := h
    obtain ⟨x,l,y,rfl,hx,-⟩ := hc.joined
    exact (headed_of_written a hg.2.1 ha hx).append _ (by simp [Expr.level]) (by simp [Expr.level])
  | .and a b,_,_,hg,h,hc => by
    simp only [Expr.Grammatical] at hg
    simp only [Expr.Written] at h
    obtain ⟨u,w,v,rfl,-,ha,-⟩ := h
    obtain ⟨x,l,y,rfl,hx,-⟩ := hc.joined
    exact (headed_of_written a hg.2.2.1 ha hx).append _ (by simp [Expr.level])
      (by simp [Expr.level])
  | .not a,_,_,_,h,hc => by
    simp only [Expr.Written] at h
    obtain ⟨w,u,rfl,-,-⟩ := h
    obtain ⟨l,x,rfl,-⟩ := hc.cons
    exact ⟨by simp,by simp [Expr.level],by simp [Expr.level]⟩
  | .compare op a b,_,_,hg,h,hc => by
    simp only [Expr.Grammatical] at hg
    simp only [Expr.Written] at h
    obtain ⟨u,v,rfl,ha,-⟩ := h
    obtain ⟨x,l,y,rfl,hx,-⟩ := hc.joined
    exact (headed_of_written a hg.2.2.1 ha hx).append _ (fun _ => by omega) (by simp [Expr.level])
  | .arith op a b,_,_,hg,h,hc => by
    simp only [Expr.Grammatical] at hg
    simp only [Expr.Written] at h
    obtain ⟨u,v,rfl,ha,-⟩ := h
    obtain ⟨x,l,y,rfl,hx,-⟩ := hc.joined
    have hop : 4 ≤ arithLevel op ∧ arithLevel op < 7 := by cases op <;> simp [arithLevel]
    exact (headed_of_written a hg.2.2.1 ha hx).append _ (fun _ => by omega)
      (by simp [Expr.level,hop.2])
  | .signed op a,_,_,_,h,hc => by
    simp only [Expr.Written] at h
    obtain ⟨u,rfl,-⟩ := h
    obtain ⟨l,x,rfl,hl,-⟩ := hc.cons
    refine ⟨by simp,fun _ => clear_cons ?_ x,by simp [Expr.level]⟩
    rw [hl]
    cases op <;> decide
  | .float _,_,_,hg,_,_ => by simp only [Expr.Grammatical] at hg
  | .int n,_,_,hg,h,hc => by
    simp only [Expr.Grammatical] at hg
    simp only [Expr.Written] at h
    subst h
    obtain ⟨l,rfl,hl,hf⟩ := hc.single
    exact .of_word (not_mem_leaders hf (Or.inl (kind_of_digits hg hf hl)))
  | .string t,_,_,_,h,hc => by
    simp only [Expr.Written] at h
    subst h
    obtain ⟨l,rfl,hl,hf⟩ := hc.single
    exact .of_word (not_mem_leaders hf (Or.inr (kind_of_quoted hf hl)))
  | .bool true,_,_,_,h,hc | .bool false,_,_,_,h,hc | .nil,_,_,_,h,hc => by
    simp only [Expr.Written] at h
    rcases h with rfl | rfl <;>
    · obtain ⟨l,rfl,hl,-⟩ := hc.single
      exact .of_word (by rw [hl]; decide)
  | .cell view key,_,_,_,h,hc => by
    simp only [Expr.Written] at h
    obtain ⟨k,rfl,-⟩ := h
    obtain ⟨l,x,rfl,hl,-⟩ := hc.cons
    exact .of_word (by rw [hl]; decide)
  | .slice view lo hi,_,_,_,h,hc => by
    simp only [Expr.Written] at h
    obtain ⟨k,j,rfl,-⟩ := h
    obtain ⟨l,x,rfl,hl,-⟩ := hc.cons
    exact .of_word (by rw [hl]; decide)
  | .call f args,_,_,hg,h,hc => by
    simp only [Expr.Grammatical] at hg
    simp only [Expr.Written] at h
    obtain ⟨k,rfl,-⟩ := h
    obtain ⟨l,x,rfl,hl,-⟩ := hc.cons
    exact .of_word (by rw [hl]; exact not_mem_leaders_of_identifier hg.1)
  | .var n _,_,_,hg,h,hc => by
    simp only [Expr.Grammatical] at hg
    simp only [Expr.Written] at h
    subst h
    obtain ⟨l,rfl,hl,-⟩ := hc.single
    exact .of_word (by rw [hl]; exact not_mem_leaders_of_identifier hg)
  | .paren a,_,_,_,h,hc => by
    simp only [Expr.Written] at h
    obtain ⟨u,rfl,-⟩ := h
    obtain ⟨l,x,rfl,hl,-⟩ := hc.cons
    exact .of_word (by rw [hl]; decide)

section Operands

variable {p : Parser Expr} {barred : List Text}

lemma reads_constant {l : Lexeme} {e : Expr} (hs : e.SameTree e)
    (h : (literal? l).or (choose? constants l) = some e) : Reads (primary p) barred e [l] := by
  intro rest _
  refine ⟨e,hs,?_⟩
  have hc : constant (l::rest) = some (e,rest) := by
    simp only [constant,Option.orElse_eq_or,h,Option.map_some]
  simp [primary,hc]

/-- A word with a meaning of its own is no literal. -/
lemma literal?_of_name {l : Lexeme} (h : l.kind = .name) : literal? l = none := by
  simp only [literal?,h]

lemma literal?_of_mark {l : Lexeme} (h : l.kind = .punctuation) : literal? l = none := by
  simp only [literal?,h]

lemma constant_eq_none {l : Lexeme} (hl : literal? l = none)
    (ht : l.text ∉ constants.map (·.1)) (rest : List Lexeme) : constant (l::rest) = none := by
  simp [constant,hl,choose?_eq_none ht]

lemma rowRef_eq_none {l : Lexeme} (h : l.text ≠ Text.ofString "row") (rest : List Lexeme) :
    rowRef p (l::rest) = none := by
  have he : expect "row" (l::rest) = none := expect_eq_none (clear_cons (by simpa using h) rest)
  simp [rowRef,he]

lemma call_eq_none {l : Lexeme} {rest : List Lexeme}
    (h : l.kind ≠ .name ∨ Clear [Text.ofString "("] rest) : call p (l::rest) = none := by
  rcases h with h | h
  · simp [call,h]
  · simp [call,expect_eq_none h]

/-- No closing mark starts an expression. -/
lemma eq_none_of_close (hp : Sound p) {c : Lexeme} (hf : c.shape.Fits)
    (hc : c.text ∈ closeMarks) (rest : List Lexeme) : p (c::rest) = none := by
  cases hx : p (c::rest) with
  | none => rfl
  | some found =>
    obtain ⟨e,r⟩ := found
    obtain ⟨used,hu,hs⟩ := hp hx
    obtain ⟨l,hl,ho⟩ := hs.chained.opens
    have hlc : l = c := by
      cases used with
      | nil => simp at hl
      | cons x used =>
        simp only [List.head?_cons,Option.mem_def,Option.some.injEq] at hl
        rw [List.cons_append,List.cons.injEq] at hu
        rw [← hl,hu.1]
    subst hlc
    have hk : l.shape.kind = .punctuation := List.mem_singleton.mp
      (kindsOf_marks.kind_mem hf (List.mem_append_left _ (List.mem_append_right _ hc)))
    have hno : ∀ w ∈ closeMarks, w ∉ constants.map (·.1) ++ leaders ++
        [Text.ofString "row",Text.ofString "("] := by decide
    rcases ho with ho | ho
    · rw [hk] at ho
      exact absurd ho (by decide)
    · exact absurd ho (hno _ hc)

lemma clear_close {words : List Text} {c : Lexeme} (hw : ∀ w ∈ closeMarks, w ∉ words)
    (hc : c.text ∈ closeMarks) (rest : List Lexeme) : Clear words (c::rest) :=
  clear_cons (hw _ hc) rest

def OptionReads (p : Parser Expr) (o : Option Expr) (ls : List Lexeme) : Prop :=
  ∀ c rest, c.shape.Fits → c.text ∈ closeMarks →
    ∃ o', OptionAlike (fun _ _ => False) o o' ∧ optional p (ls ++ c::rest) = some (o',c::rest)

lemma optionReads_none (hp : Sound p) : OptionReads p none [] := by
  intro c rest hf hc
  refine ⟨none,rfl,?_⟩
  exact optional_of_none (eq_none_of_close hp hf hc rest)

lemma optionReads_some {e : Expr} {ls : List Lexeme} (h : Reads p afterExpression e ls) :
    OptionReads p (some e) ls := by
  intro c rest _ hc
  obtain ⟨e',he,hx⟩ := h (c::rest) (clear_close (by decide) hc rest)
  refine ⟨some e',?_,optional_of_some hx⟩
  simp only [OptionAlike]
  exact ⟨e',rfl,he⟩

/-- One more item of a list, after a comma. -/
def moreItem (p : Parser Expr) (items : List Expr) : Parser (List Expr) := fun ls => do
  let (_,ls) ← expect "," ls
  let (next,ls) ← p ls
  return (items ++ [next],ls)

/-- The items after the first one, in front of a closing mark. -/
def MoreReads (p : Parser Expr) (es : List Expr) (ls : List Lexeme) : Prop :=
  ∀ c rest items fuel, c.shape.Fits → c.text ∈ closeMarks → (ls ++ c::rest).length ≤ fuel →
    ∃ es', ListAlike (fun _ _ => False) es es' ∧
      extend (moreItem p) fuel items (ls ++ c::rest) = some (items ++ es',c::rest)

lemma moreReads_nil : MoreReads p [] [] := by
  intro c rest items fuel _ hc _
  refine ⟨[],rfl,?_⟩
  rw [List.nil_append,List.append_nil]
  refine extend_of_none ?_ fuel
  have hcomma : Clear [Text.ofString ","] (c::rest) := clear_close (by decide) hc rest
  simp [moreItem,expect_eq_none hcomma]

/-- A list goes on with a comma or ends with a closing mark. -/
lemma clear_more {es : List Expr} {ws : List Text} {ls : List Lexeme} (h : MoreWritten es ws)
    (hl : Carries ls ws) {c : Lexeme} (hc : c.text ∈ closeMarks) (rest : List Lexeme) :
    Clear afterExpression (ls ++ c::rest) := by
  cases es with
  | nil =>
    simp only [MoreWritten] at h
    subst h
    rw [hl.nil_iff]
    exact clear_close (by decide) hc rest
  | cons e es =>
    simp only [MoreWritten] at h
    obtain ⟨u,v,rfl,-,-⟩ := h
    obtain ⟨l,x,rfl,ht,-⟩ := hl.cons
    refine clear_cons ?_ _
    rw [ht]
    decide

lemma moreReads_cons {e : Expr} {es : List Expr} {m : Lexeme} {u v : List Lexeme} {ws : List Text}
    (hm : m.text = Text.ofString ",") (he : Reads p afterExpression e u) (hes : MoreReads p es v)
    (hw : MoreWritten es ws) (hv : Carries v ws) : MoreReads p (e::es) (m::(u ++ v)) := by
  intro c rest items fuel hf hc hlen
  obtain ⟨e',hee,hx⟩ := he (v ++ c::rest) (clear_more hw hv hc rest)
  obtain ⟨fuel,rfl⟩ : ∃ n, fuel = n+1 := ⟨fuel-1,by simp at hlen; omega⟩
  obtain ⟨es',hess,hy⟩ := hes c rest (items ++ [e']) fuel hf hc (by simp at hlen ⊢; omega)
  refine ⟨e'::es',?_,?_⟩
  · simp only [ListAlike]
    exact ⟨e',es',rfl,hee,hess⟩
  · have hstep : moreItem p items (m::(u ++ v) ++ c::rest) =
        some (items ++ [e'],v ++ c::rest) := by
      simp [moreItem,expect_cons hm,hx]
    rw [extend_of_some hstep,hy]
    simp

def ItemsReads (p : Parser Expr) (es : List Expr) (ls : List Lexeme) : Prop :=
  ∀ c rest, c.shape.Fits → c.text ∈ closeMarks →
    ∃ o, ListAlike (fun _ _ => False) es (o.getD []) ∧
      optional (list p) (ls ++ c::rest) = some (o,c::rest)

lemma itemsReads_nil (hp : Sound p) : ItemsReads p [] [] := by
  intro c rest hf hc
  refine ⟨none,rfl,?_⟩
  exact optional_of_none (by simp [list,eq_none_of_close hp hf hc])

lemma itemsReads_cons {e : Expr} {es : List Expr} {u v : List Lexeme} {ws : List Text}
    (he : Reads p afterExpression e u) (hes : MoreReads p es v) (hw : MoreWritten es ws)
    (hv : Carries v ws) : ItemsReads p (e::es) (u ++ v) := by
  intro c rest hf hc
  obtain ⟨e',hee,hx⟩ := he (v ++ c::rest) (clear_more hw hv hc rest)
  obtain ⟨es',hess,hy⟩ := hes c rest [e'] _ hf hc le_rfl
  have hlist : list p (u ++ v ++ c::rest) = some (e'::es',c::rest) := by
    rw [List.append_assoc]
    simp only [list,hx]
    exact hy
  refine ⟨some (e'::es'),?_,optional_of_some hlist⟩
  simp only [Option.getD_some,ListAlike]
  exact ⟨e',es',rfl,hee,hess⟩

lemma primary_of_rowRef {l : Lexeme} {rest : List Lexeme} {found : Expr × List Lexeme}
    (hf : l.shape.Fits) (hl : l.text = Text.ofString "row")
    (h : rowRef p (l::rest) = some found) : primary p (l::rest) = some found := by
  have hk : l.kind = .name := List.mem_singleton.mp (kindsOf_row.kind_mem hf (by simp [Lexeme.shape,hl]))
  have hc := constant_eq_none (literal?_of_name hk) (by rw [hl]; decide) rest
  simp [primary,hc,h]

/-- The lexemes of a view, and the reference to the row up to its opening bracket. -/
lemma primary_row {view : Option Text} {r o : Lexeme} {v rest : List Lexeme}
    {found : Expr × List Lexeme} (hview : ∀ w ∈ view, IsName w) (hf : r.shape.Fits)
    (hr : r.text = Text.ofString "row") (hv : Carries v (viewWords view))
    (ho : o.text = Text.ofString "[") (h : subscript p view rest = some found) :
    primary p (r::(v ++ o::rest)) = some found := by
  refine primary_of_rowRef hf hr ?_
  cases view with
  | none =>
    rw [hv.nil_iff,List.nil_append,rowRef_bare hr ho]
    exact h
  | some w =>
    obtain ⟨d,x,rfl,hd,-,hx⟩ := hv.cons
    obtain ⟨y,rfl,hy,hyf⟩ := hx.single
    have hk := kind_of_name (hview w rfl) hyf hy
    rw [List.cons_append,List.cons_append,List.nil_append,rowRef_view hr hd hk ho,hy]
    exact h

lemma reads_cell {view : Option Text} {key : Option Expr} {r o c : Lexeme} {v k : List Lexeme}
    (hview : ∀ w ∈ view, IsName w) (hf : r.shape.Fits) (hr : r.text = Text.ofString "row")
    (hv : Carries v (viewWords view)) (ho : o.text = Text.ofString "[")
    (hk : OptionReads p key k) (hcf : c.shape.Fits) (hc : c.text = Text.ofString "]") :
    Reads (primary p) barred (.cell view key) (r::(v ++ o::(k ++ [c]))) := by
  intro rest _
  obtain ⟨key',hkk,hx⟩ := hk c rest hcf (by rw [hc]; decide)
  refine ⟨.cell view key',?_,?_⟩
  · simp only [Expr.SameTree,Expr.Alike]
    exact ⟨key',rfl,Or.inl hkk⟩
  · have h := primary_row hview hf hr hv ho (subscript_cell view hx hc)
    simpa using h

lemma reads_slice {view : Option Text} {lo hi : Option Expr} {r o m c : Lexeme}
    {v k j : List Lexeme} (hview : ∀ w ∈ view, IsName w) (hf : r.shape.Fits)
    (hr : r.text = Text.ofString "row") (hv : Carries v (viewWords view))
    (ho : o.text = Text.ofString "[") (hk : OptionReads p lo k) (hmf : m.shape.Fits)
    (hm : m.text = Text.ofString ":") (hj : OptionReads p hi j) (hcf : c.shape.Fits)
    (hc : c.text = Text.ofString "]") :
    Reads (primary p) barred (.slice view lo hi) (r::(v ++ o::(k ++ m::(j ++ [c])))) := by
  intro rest _
  obtain ⟨lo',hlo,hx⟩ := hk m (j ++ c::rest) hmf (by rw [hm]; decide)
  obtain ⟨hi',hhi,hy⟩ := hj c rest hcf (by rw [hc]; decide)
  refine ⟨.slice view lo' hi',?_,?_⟩
  · simp only [Expr.SameTree,Expr.Alike]
    exact ⟨lo',hi',rfl,hlo,hhi⟩
  · have h := primary_row hview hf hr hv ho (subscript_slice view hx hm hy hc)
    simpa using h

/-- An identifier is no word of its own. -/
lemma primary_of_identifier {l : Lexeme} {rest : List Lexeme} (hw : IsIdentifier l.text)
    (hf : l.shape.Fits) :
    primary p (l::rest) = (call p (l::rest)).or ((var (l::rest)).or (paren p (l::rest))) := by
  have hk := kind_of_name hw.1 hf rfl
  have hreserved : ∀ w ∈ constants.map (·.1), w ∈ reserved := by decide
  have hc := constant_eq_none (literal?_of_name hk) (fun hm => hw.2 (hreserved _ hm)) rest
  have hr : l.text ≠ Text.ofString "row" := by
    intro h
    apply hw.2
    rw [h]
    decide
  simp [primary,hc,rowRef_eq_none hr]

lemma reads_call {f : Text} {args : List Expr} {l o c : Lexeme} {k : List Lexeme}
    (hw : IsIdentifier f) (hf : l.shape.Fits) (hl : l.text = f) (ho : o.text = Text.ofString "(")
    (hk : ItemsReads p args k) (hcf : c.shape.Fits) (hc : c.text = Text.ofString ")") :
    Reads (primary p) barred (.call f args) (l::o::(k ++ [c])) := by
  intro rest _
  subst hl
  obtain ⟨found,ha,hx⟩ := hk c rest hcf (by rw [hc]; decide)
  refine ⟨.call l.text (found.getD []),?_,?_⟩
  · simp only [Expr.SameTree,Expr.Alike]
    exact ⟨found.getD [],rfl,ha⟩
  · have hcall : call p (l::o::(k ++ c::rest)) = some (.call l.text (found.getD []),rest) := by
      simp [call,kind_of_name hw.1 hf rfl,expect_cons ho,hx,expect_cons hc]
    simp [primary_of_identifier hw hf,hcall]

lemma reads_var {n : Text} {pos : Text.Position} {l : Lexeme} (hw : IsIdentifier n)
    (hf : l.shape.Fits) (hl : l.text = n) : Reads (primary p) afterOperand (.var n pos) [l] := by
  intro rest hr
  subst hl
  refine ⟨.var l.text l.pos,?_,?_⟩
  · simp only [Expr.SameTree,Expr.Alike]
    exact ⟨l.pos,rfl⟩
  · have hcall : call p (l::rest) = none := call_eq_none (Or.inr hr)
    simp [primary_of_identifier hw hf,hcall,var,kind_of_name hw.1 hf rfl]

lemma primary_paren {e : Expr} {o c : Lexeme} {u rest : List Lexeme}
    (hf : o.shape.Fits) (ho : o.text = Text.ofString "(") (hu : p (u ++ c::rest) = some (e,c::rest))
    (hc : c.text = Text.ofString ")") :
    primary p (o::(u ++ c::rest)) = some (.paren e,rest) := by
  have hk : o.kind = .punctuation := List.mem_singleton.mp
    (kindsOf_marks.kind_mem hf (by simp [Lexeme.shape,ho,openMarks]))
  have hnone := constant_eq_none (literal?_of_mark hk) (by rw [ho]; decide) (u ++ c::rest)
  have hrow : rowRef p (o::(u ++ c::rest)) = none := rowRef_eq_none (by rw [ho]; decide) _
  have hcall : call p (o::(u ++ c::rest)) = none := call_eq_none (Or.inl (by simp [hk]))
  simp [primary,hnone,hrow,hcall,var,hk,paren,expect_cons ho,hu,expect_cons hc]

lemma reads_paren {e : Expr} {o c : Lexeme} {u : List Lexeme} (hf : o.shape.Fits)
    (ho : o.text = Text.ofString "(") (hu : Reads p afterExpression e u)
    (hc : c.text = Text.ofString ")") : Reads (primary p) barred (.paren e) (o::(u ++ [c])) := by
  intro rest _
  obtain ⟨e',he,hx⟩ := hu (c::rest) (clear_close (by decide) (by rw [hc]; decide) rest)
  refine ⟨.paren e',?_,?_⟩
  · simp only [Expr.SameTree,Expr.Alike]
    exact ⟨e',rfl,he⟩
  · rw [List.cons_append,List.append_assoc]
    exact primary_paren hf ho hx hc

end Operands

section Operators

variable {p : Parser Expr}

lemma choose?_of_mem {α : Type} {words : List (Text × α)} {l : Lexeme} {a : α}
    (h : (l.text,a) ∈ words) (hn : (words.map (·.1)).Nodup) : choose? words l = some a := by
  induction words with
  | nil => simp at h
  | cons w words ih =>
    rw [List.map_cons,List.nodup_cons] at hn
    rcases List.mem_cons.mp h with rfl | h
    · simp [choose?,isWord]
    · have hne : l.text ≠ w.1 := by
        intro he
        apply hn.1
        rw [← he]
        exact List.mem_map_of_mem h
      have hi := ih h hn.2
      simp only [choose?,isWord] at hi ⊢
      rw [List.find?_cons_of_neg (by simpa using hne)]
      exact hi

lemma reads_compare {op : Compare} {a b : Expr} {u v : List Lexeme} {w : Lexeme}
    (ha : Reads (sum p) afterSum a u) (hb : Reads (sum p) afterSum b v)
    (hw : w.text = op.symbol) : Reads (comparison p) afterComparison (.compare op a b) (u ++ w::v) := by
  intro rest hr
  obtain ⟨b',hbb,hy⟩ := hb rest (hr.mono (by simp [afterComparison]))
  have hbar : ∀ op : Compare, op.symbol ∉ afterSum := by intro op; cases op <;> decide
  obtain ⟨a',haa,hx⟩ := ha (w::(v ++ rest)) (clear_cons (by rw [hw]; exact hbar op) _)
  have hop : choose? comparisons w = some op := by
    refine choose?_of_mem ?_ (by decide)
    rw [hw]
    cases op <;> decide
  refine ⟨.compare op a' b',?_,?_⟩
  · simp only [Expr.SameTree,Expr.Alike]
    exact ⟨a',b',rfl,haa,hbb⟩
  · rw [List.append_assoc,List.cons_append]
    simp [comparison,hx,oneOf,hop,hy]

lemma reads_not {a : Expr} {u : List Lexeme} {w : Lexeme}
    (ha : Reads (negation p) afterComparison a u) (hw : (w.text,()) ∈ negations) :
    Reads (negation p) afterComparison (.not a) (w::u) := by
  intro rest hr
  obtain ⟨a',haa,hx⟩ := ha rest hr
  refine ⟨.not a',?_,?_⟩
  · simp only [Expr.SameTree,Expr.Alike]
    exact ⟨a',rfl,haa⟩
  · rw [List.cons_append,negation,choose?_of_mem hw (by decide),hx]

lemma reads_signed {op : Sign} {a : Expr} {u : List Lexeme} {w : Lexeme}
    (ha : Reads (signed p) afterOperand a u) (hw : w.text = op.symbol) :
    Reads (signed p) afterOperand (.signed op a) (w::u) := by
  intro rest hr
  obtain ⟨a',haa,hx⟩ := ha rest hr
  have hop : choose? signs w = some op := by
    refine choose?_of_mem ?_ (by decide)
    rw [hw]
    cases op <;> decide
  refine ⟨.signed op a',?_,?_⟩
  · simp only [Expr.SameTree,Expr.Alike]
    exact ⟨a',rfl,haa⟩
  · simp [signed,hop,hx]

lemma gains_arith {operand : Parser Expr} {operators : List (Text × Arith)} {barred : List Text}
    {op : Arith} {a b : Expr} {u v : List Lexeme} {w : Lexeme} (hs : Shrinks operand)
    (ha : Gains operand operators .arith barred a u) (hb : Reads operand barred b v)
    (hw : (w.text,op) ∈ operators) (hn : (operators.map (·.1)).Nodup) (hbar : w.text ∉ barred) :
    Gains operand operators .arith barred (.arith op a b) (u ++ w::v) := by
  refine ha.step hs hb (choose?_of_mem hw hn) hbar ?_
  intro a' b' haa hbb
  simp only [Expr.SameTree,Expr.Alike]
  exact ⟨a',b',rfl,haa,hbb⟩

lemma gains_or {a b : Expr} {u v : List Lexeme} {w : Lexeme} (hs : Shrinks (conjunction p))
    (ha : Gains (conjunction p) disjunctions (fun _ => .or) afterConjunction a u)
    (hb : Reads (conjunction p) afterConjunction b v) (hw : (w.text,()) ∈ disjunctions) :
    Gains (conjunction p) disjunctions (fun _ => .or) afterConjunction (.or a b) (u ++ w::v) := by
  have hbar : ∀ w ∈ disjunctions.map (·.1), w ∉ afterConjunction := by decide
  refine ha.step hs hb (choose?_of_mem hw (by decide)) (hbar _ (List.mem_map_of_mem hw)) ?_
  intro a' b' haa hbb
  simp only [Expr.SameTree,Expr.Alike]
  exact ⟨a',b',rfl,haa,hbb⟩

lemma gains_and {a b : Expr} {u v : List Lexeme} {w : Lexeme} (hs : Shrinks (negation p))
    (ha : Gains (negation p) conjunctions (fun _ => .and) afterComparison a u)
    (hb : Reads (negation p) afterComparison b v) (hw : (w.text,()) ∈ conjunctions) :
    Gains (negation p) conjunctions (fun _ => .and) afterComparison (.and a b) (u ++ w::v) := by
  have hbar : ∀ w ∈ conjunctions.map (·.1), w ∉ afterComparison := by decide
  refine ha.step hs hb (choose?_of_mem hw (by decide)) (hbar _ (List.mem_map_of_mem hw)) ?_
  intro a' b' haa hbb
  simp only [Expr.SameTree,Expr.Alike]
  exact ⟨a',b',rfl,haa,hbb⟩

/-- An operator on numbers chains at the level of its own words. -/
lemma ownLevel_arith {d : ℕ} {op : Arith} {a b : Expr} {u v : List Lexeme} {w : Lexeme}
    (ha : Understood d a u) (hb : Understood d b v) (hla : arithLevel op ≤ a.level)
    (hlb : arithLevel op < b.level) (hw : w.text = op.symbol) :
    OwnLevel d (.arith op a b) (u ++ w::v) := by
  have hsum : ∀ op : Arith, arithLevel op = 4 → (op.symbol,op) ∈ sums ∧
      op.symbol ∉ afterProduct := by
    intro op
    cases op <;> decide
  have hproduct : ∀ op : Arith, arithLevel op = 5 → (op.symbol,op) ∈ products ∧
      op.symbol ∉ afterOperand := by
    intro op
    cases op <;> decide
  have hlevel : (Expr.arith op a b).level = arithLevel op := rfl
  unfold OwnLevel
  rw [hlevel]
  rcases (by cases op <;> simp [arithLevel] : arithLevel op = 4 ∨ arithLevel op = 5) with hop | hop
  · rw [hop] at hla hlb ⊢
    exact gains_arith (Sound.product (Sound.expr d)).shrinks (ha.sum hla) (hb.product hlb).reads
      (hw ▸ (hsum op hop).1) (by decide) (hw ▸ (hsum op hop).2)
  · rw [hop] at hla hlb ⊢
    exact gains_arith (Sound.signed (Sound.expr d)).shrinks (ha.product hla) (hb.signed hlb)
      (hw ▸ (hproduct op hop).1) (by decide) (hw ▸ (hproduct op hop).2)

end Operators

/-- Digits are a literal for the number they stand for. -/
lemma literal?_of_digits {l : Lexeme} {n : Int64} (hn : 0 ≤ n.toInt) (hf : l.shape.Fits)
    (hl : l.text = Text.ofInt n.toInt) : literal? l = some (.int n) := by
  obtain ⟨m,hm⟩ := Int.eq_ofNat_of_zero_le hn
  have hlt : m < 2^63 := by
    have h := n.toInt_lt
    omega
  have hr := Number.readInt_of_isDecimal (Text.isDecimal_ofNat m) (by simpa using hlt)
  rw [Text.decimal_ofNat,← hm,Int64.ofInt_toInt] at hr
  have ht : l.text = Text.ofNat m := by rw [hl,hm]; rfl
  simp only [literal?,kind_of_digits hn hf hl,ht,hr]
  rfl

mutual

/-- Every written expression is read at its own level and all looser ones, by parsers for nested
expressions that go deep enough. -/
theorem understood_of_written : ∀ (e : Expr) {ws : List Text} {ls : List Lexeme} {d : ℕ},
    e.Grammatical → e.Written ws → Carries ls ws → ls.length ≤ d → Understood d e ls
  | .or a b,_,_,d,hg,h,hc,hd => by
    refine OwnLevel.understood ?_ (headed_of_written _ hg h hc)
    simp only [Expr.Grammatical] at hg
    simp only [Expr.Written] at h
    obtain ⟨u,w,v,rfl,hw,ha,hb⟩ := h
    obtain ⟨x,l,y,rfl,hx,hl,-,hy⟩ := hc.joined
    simp only [List.length_append,List.length_cons] at hd
    have hua := understood_of_written a hg.2.1 ha hx (d := d) (by omega)
    have hub := understood_of_written b hg.2.2 hb hy (d := d) (by omega)
    exact gains_or (Sound.conjunction (Sound.expr d)).shrinks hua.disjunction
      (hub.conjunction hg.1).reads (hl ▸ hw)
  | .and a b,_,_,d,hg,h,hc,hd => by
    refine OwnLevel.understood ?_ (headed_of_written _ hg h hc)
    simp only [Expr.Grammatical] at hg
    simp only [Expr.Written] at h
    obtain ⟨u,w,v,rfl,hw,ha,hb⟩ := h
    obtain ⟨x,l,y,rfl,hx,hl,-,hy⟩ := hc.joined
    simp only [List.length_append,List.length_cons] at hd
    have hua := understood_of_written a hg.2.2.1 ha hx (d := d) (by omega)
    have hub := understood_of_written b hg.2.2.2 hb hy (d := d) (by omega)
    exact gains_and (Sound.negation (Sound.expr d)).shrinks (hua.conjunction hg.1)
      (hub.negation hg.2.1) (hl ▸ hw)
  | .not a,_,_,d,hg,h,hc,hd => by
    refine OwnLevel.understood ?_ (headed_of_written _ hg h hc)
    simp only [Expr.Grammatical] at hg
    simp only [Expr.Written] at h
    obtain ⟨w,u,rfl,hw,ha⟩ := h
    obtain ⟨l,x,rfl,hl,-,hx⟩ := hc.cons
    simp only [List.length_cons] at hd
    have hua := understood_of_written a hg.2 ha hx (d := d) (by omega)
    exact reads_not (hua.negation hg.1) (hl ▸ hw)
  | .compare op a b,_,_,d,hg,h,hc,hd => by
    refine OwnLevel.understood ?_ (headed_of_written _ hg h hc)
    simp only [Expr.Grammatical] at hg
    simp only [Expr.Written] at h
    obtain ⟨u,v,rfl,ha,hb⟩ := h
    obtain ⟨x,l,y,rfl,hx,hl,-,hy⟩ := hc.joined
    simp only [List.length_append,List.length_cons] at hd
    have hua := understood_of_written a hg.2.2.1 ha hx (d := d) (by omega)
    have hub := understood_of_written b hg.2.2.2 hb hy (d := d) (by omega)
    exact reads_compare (hua.sum hg.1).reads (hub.sum hg.2.1).reads hl
  | .arith op a b,_,_,d,hg,h,hc,hd => by
    refine OwnLevel.understood ?_ (headed_of_written _ hg h hc)
    simp only [Expr.Grammatical] at hg
    simp only [Expr.Written] at h
    obtain ⟨u,v,rfl,ha,hb⟩ := h
    obtain ⟨x,l,y,rfl,hx,hl,-,hy⟩ := hc.joined
    simp only [List.length_append,List.length_cons] at hd
    have hua := understood_of_written a hg.2.2.1 ha hx (d := d) (by omega)
    have hub := understood_of_written b hg.2.2.2 hb hy (d := d) (by omega)
    exact ownLevel_arith hua hub hg.1 hg.2.1 hl
  | .signed op a,_,_,d,hg,h,hc,hd => by
    refine OwnLevel.understood ?_ (headed_of_written _ hg h hc)
    simp only [Expr.Grammatical] at hg
    simp only [Expr.Written] at h
    obtain ⟨u,rfl,ha⟩ := h
    obtain ⟨l,x,rfl,hl,-,hx⟩ := hc.cons
    simp only [List.length_cons] at hd
    have hua := understood_of_written a hg.2 ha hx (d := d) (by omega)
    exact reads_signed (hua.signed hg.1) hl
  | .float _,_,_,_,hg,_,_,_ => by simp only [Expr.Grammatical] at hg
  | .int n,_,_,d,hg,h,hc,_ => by
    refine OwnLevel.understood ?_ (headed_of_written _ hg h hc)
    simp only [Expr.Grammatical] at hg
    simp only [Expr.Written] at h
    subst h
    obtain ⟨l,rfl,hl,hf⟩ := hc.single
    refine reads_constant (by simp only [Expr.SameTree,Expr.Alike]) ?_
    rw [literal?_of_digits hg hf hl,Option.some_or]
  | .string t,_,_,_,hg,h,hc,_ => by
    refine OwnLevel.understood ?_ (headed_of_written _ hg h hc)
    simp only [Expr.Written] at h
    subst h
    obtain ⟨l,rfl,hl,hf⟩ := hc.single
    refine reads_constant (by simp only [Expr.SameTree,Expr.Alike]) ?_
    simp [literal?,kind_of_quoted hf hl,hl,decodeLiteral_quoteLiteral]
  | .bool true,_,_,_,hg,h,hc,_ | .bool false,_,_,_,hg,h,hc,_ | .nil,_,_,_,hg,h,hc,_ => by
    refine OwnLevel.understood ?_ (headed_of_written _ hg h hc)
    simp only [Expr.Written] at h
    rcases h with rfl | rfl <;>
    · obtain ⟨l,rfl,hl,hf⟩ := hc.single
      have hk : l.kind = .name := List.mem_singleton.mp
        (kindsOf_constants.kind_mem hf (show l.text ∈ _ by rw [hl]; decide))
      refine reads_constant (by simp only [Expr.SameTree,Expr.Alike]) ?_
      rw [literal?_of_name hk,Option.none_or]
      refine choose?_of_mem ?_ (by decide)
      rw [hl]
      simp [constants]
  | .cell view key,_,_,d,hg,h,hc,hd => by
    refine OwnLevel.understood ?_ (headed_of_written _ hg h hc)
    simp only [Expr.Grammatical] at hg
    simp only [Expr.Written] at h
    obtain ⟨k,rfl,hk⟩ := h
    obtain ⟨r,x,rfl,hr,hrf,hx⟩ := hc.cons
    obtain ⟨v,o,y,rfl,hv,ho,-,hy⟩ := hx.joined
    obtain ⟨k',c,z,rfl,hk',hc',hcf,hz⟩ := hy.joined
    rw [hz.nil_iff] at hd ⊢
    simp only [List.length_append,List.length_cons,List.length_nil] at hd
    exact reads_cell hg.1 hrf hr hv ho (optionReads_of_written key hg.2 hk hk' (by omega)) hcf hc'
  | .slice view lo hi,_,_,d,hg,h,hc,hd => by
    refine OwnLevel.understood ?_ (headed_of_written _ hg h hc)
    simp only [Expr.Grammatical] at hg
    simp only [Expr.Written] at h
    obtain ⟨k,j,rfl,hk,hj⟩ := h
    obtain ⟨r,x,rfl,hr,hrf,hx⟩ := hc.cons
    obtain ⟨v,o,y,rfl,hv,ho,-,hy⟩ := hx.joined
    obtain ⟨k',m,z,rfl,hk',hm,hmf,hz⟩ := hy.joined
    obtain ⟨j',c,q,rfl,hj',hc',hcf,hq⟩ := hz.joined
    rw [hq.nil_iff] at hd ⊢
    simp only [List.length_append,List.length_cons,List.length_nil] at hd
    exact reads_slice hg.1 hrf hr hv ho (optionReads_of_written lo hg.2.1 hk hk' (by omega)) hmf hm
      (optionReads_of_written hi hg.2.2 hj hj' (by omega)) hcf hc'
  | .call f args,_,_,d,hg,h,hc,hd => by
    refine OwnLevel.understood ?_ (headed_of_written _ hg h hc)
    simp only [Expr.Grammatical] at hg
    simp only [Expr.Written] at h
    obtain ⟨k,rfl,hk⟩ := h
    obtain ⟨l,x,rfl,hl,hlf,hx⟩ := hc.cons
    obtain ⟨o,y,rfl,ho,-,hy⟩ := hx.cons
    obtain ⟨k',c,z,rfl,hk',hc',hcf,hz⟩ := hy.joined
    rw [hz.nil_iff] at hd ⊢
    simp only [List.length_append,List.length_cons,List.length_nil] at hd
    exact reads_call hg.1 hlf hl ho (itemsReads_of_written args hg.2 hk hk' (by omega)) hcf hc'
  | .var n pos,_,_,_,hg,h,hc,_ => by
    refine OwnLevel.understood ?_ (headed_of_written _ hg h hc)
    simp only [Expr.Grammatical] at hg
    simp only [Expr.Written] at h
    subst h
    obtain ⟨l,rfl,hl,hf⟩ := hc.single
    exact reads_var hg hf hl
  | .paren a,_,_,d,hg,h,hc,hd => by
    refine OwnLevel.understood ?_ (headed_of_written _ hg h hc)
    simp only [Expr.Grammatical] at hg
    simp only [Expr.Written] at h
    obtain ⟨u,rfl,ha⟩ := h
    obtain ⟨o,x,rfl,ho,hof,hx⟩ := hc.cons
    obtain ⟨y,c,z,rfl,hy,hc',-,hz⟩ := hx.joined
    rw [hz.nil_iff] at hd ⊢
    simp only [List.length_append,List.length_cons,List.length_nil] at hd
    obtain ⟨n,rfl⟩ : ∃ n, d = n+1 := ⟨d-1,by omega⟩
    have hua := understood_of_written a hg ha hy (d := n) (by omega)
    exact reads_paren hof ho hua.reads_expr hc'

lemma optionReads_of_written : ∀ (o : Option Expr) {ws : List Text} {ls : List Lexeme} {d : ℕ},
    OptionGrammatical o → OptionWritten o ws → Carries ls ws → ls.length < d →
    OptionReads (expr d) o ls
  | none,_,_,d,_,h,hc,_ => by
    simp only [OptionWritten] at h
    subst h
    rw [hc.nil_iff]
    exact optionReads_none (Sound.expr d)
  | some a,_,_,d,hg,h,hc,hd => by
    simp only [OptionGrammatical] at hg
    simp only [OptionWritten] at h
    obtain ⟨n,rfl⟩ : ∃ n, d = n+1 := ⟨d-1,by omega⟩
    have hua := understood_of_written a hg h hc (d := n) (by omega)
    exact optionReads_some hua.reads_expr

lemma itemsReads_of_written : ∀ (es : List Expr) {ws : List Text} {ls : List Lexeme} {d : ℕ},
    ListGrammatical es → ItemsWritten es ws → Carries ls ws → ls.length < d →
    ItemsReads (expr d) es ls
  | [],_,_,d,_,h,hc,_ => by
    simp only [ItemsWritten] at h
    subst h
    rw [hc.nil_iff]
    exact itemsReads_nil (Sound.expr d)
  | a::as,_,_,d,hg,h,hc,hd => by
    simp only [ListGrammatical] at hg
    simp only [ItemsWritten] at h
    obtain ⟨u,v,rfl,ha,has⟩ := h
    obtain ⟨x,y,rfl,hx,hy⟩ := hc.append
    rw [List.length_append] at hd
    obtain ⟨n,rfl⟩ : ∃ n, d = n+1 := ⟨d-1,by omega⟩
    have hua := understood_of_written a hg.1 ha hx (d := n) (by omega)
    exact itemsReads_cons hua.reads_expr (moreReads_of_written as hg.2 has hy (by omega)) has hy

lemma moreReads_of_written : ∀ (es : List Expr) {ws : List Text} {ls : List Lexeme} {d : ℕ},
    ListGrammatical es → MoreWritten es ws → Carries ls ws → ls.length < d →
    MoreReads (expr d) es ls
  | [],_,_,d,_,h,hc,_ => by
    simp only [MoreWritten] at h
    subst h
    rw [hc.nil_iff]
    exact moreReads_nil
  | a::as,_,_,d,hg,h,hc,hd => by
    simp only [ListGrammatical] at hg
    simp only [MoreWritten] at h
    obtain ⟨u,v,rfl,ha,has⟩ := h
    obtain ⟨m,z,rfl,hm,-,hz⟩ := hc.cons
    obtain ⟨x,y,rfl,hx,hy⟩ := hz.append
    rw [List.length_cons,List.length_append] at hd
    obtain ⟨n,rfl⟩ : ∃ n, d = n+1 := ⟨d-1,by omega⟩
    have hua := understood_of_written a hg.1 ha hx (d := n) (by omega)
    exact moreReads_cons hm hua.reads_expr (moreReads_of_written as hg.2 has hy (by omega)) has hy

end

/-- Lexing gives lexemes of the shapes that a text was laid out from. -/
lemma Laid.lex? {ss : List Shape} {t : Text} (h : Laid ss t) :
    ∃ ls, Script.lex? t = some ls ∧ ls.map Lexeme.shape = ss := by
  have hs := h.shapes?
  rw [Script.shapes?,Option.map_eq_some_iff] at hs
  exact hs

/-- Every expression of the grammar is read back from its words with single spaces between them. -/
theorem compile_of_written {e : Expr} {ws : List Text} (hg : e.Grammatical) (hw : e.Written ws) :
    ∃ f, Formula.compile (Text.join (Text.ofString " ") ws) = .ok f ∧ e.SameTree f.expr := by
  obtain ⟨ss,hss,hfits⟩ := exists_shapes (isLexeme_of_written e hg hw)
  have hlaid := laid_join hfits
  rw [hss] at hlaid
  obtain ⟨ls,hlex,hshapes⟩ := hlaid.lex?
  have hcarries : Carries ls ws := by
    refine ⟨?_,fun l hl => hfits _ (hshapes ▸ List.mem_map_of_mem hl)⟩
    rw [← hss,← hshapes,List.map_map]
    rfl
  have hhead := headed_of_written e hg hw hcarries
  have hunder := understood_of_written e hg hw hcarries le_rfl
  obtain ⟨e',he,hx⟩ := hunder.reads_expr [] (by simp [Clear])
  rw [List.append_nil] at hx
  refine ⟨⟨_,e'⟩,Formula.compile_eq_ok_iff.mpr ⟨?_,rfl,ls,hlex,hx⟩,he⟩
  obtain ⟨l,rest,rfl⟩ := List.exists_cons_of_ne_nil hhead.nonempty
  rw [← hshapes,List.map_cons] at hlaid
  exact hlaid.not_blankOnly

/-- A tree with all levels of precedence in it. -/
def nestedTree : Expr :=
  .or (.not (.compare .lt (.var "total" {})
      (.arith .add (.int 1) (.arith .mul (.signed .minus (.cell (some "int") (some (.string "it's"))))
        (.paren (.and (.bool true) .nil))))))
    (.call "len" [.slice none (some (.int 0)) none,.string "\\"])

lemma nestedTree_grammatical : nestedTree.Grammatical := by
  have hname : ∀ w ∈ [Text.ofString "total",Text.ofString "len",Text.ofString "int"],
      nextLexeme? (Text.runes w) = some (.name,(Text.runes w).length) ∧ w ∉ reserved := by
    decide +kernel
  have hid : ∀ w ∈ [Text.ofString "total",Text.ofString "len",Text.ofString "int"],
      IsIdentifier w := fun w hw => ⟨fits_of_whole (hname w hw).1,(hname w hw).2⟩
  simp [nestedTree,Expr.Grammatical,OptionGrammatical,ListGrammatical,Expr.level,arithLevel,
    hid (Text.ofString "total") (by simp),hid (Text.ofString "len") (by simp),
    (hid (Text.ofString "int") (by simp)).1]

/-- The tree is read back from its words. -/
theorem compile_nestedTree : nestedTree.Grammatical ∧ nestedTree.Written nestedTree.words ∧
    ∃ f, Formula.compile (Text.join (Text.ofString " ") nestedTree.words) = .ok f ∧
      nestedTree.SameTree f.expr :=
  ⟨nestedTree_grammatical,written_words _ nestedTree_grammatical,
    compile_of_written nestedTree_grammatical (written_words _ nestedTree_grammatical)⟩

end CellScript.Script
