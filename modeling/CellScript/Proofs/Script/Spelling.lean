import Mathlib
import CellScript.Script.Parser

/-! What parsers take from the front of lexemes spells the tree that they give. -/
namespace CellScript.Script

def ViewSpelled : Option Text → List Lexeme → Prop
  | none,ls => ls = []
  | some view,ls => ∃ d l, ls = [d,l] ∧ d.text = Text.ofString "." ∧ l.kind = .name ∧ l.text = view

mutual

/-- The lexemes that an expression may be spelled with, whatever binds tighter. -/
@[simp]
def Expr.Spelled : Expr → List Lexeme → Prop
  | .or a b,ls => ∃ u w v, ls = u ++ w::v ∧ (w.text,()) ∈ Parser.disjunctions ∧
      a.Spelled u ∧ b.Spelled v
  | .and a b,ls => ∃ u w v, ls = u ++ w::v ∧ (w.text,()) ∈ Parser.conjunctions ∧
      a.Spelled u ∧ b.Spelled v
  | .not e,ls => ∃ w u, ls = w::u ∧ (w.text,()) ∈ Parser.negations ∧ e.Spelled u
  | .compare op a b,ls => ∃ u w v, ls = u ++ w::v ∧ (w.text,op) ∈ Parser.comparisons ∧
      a.Spelled u ∧ b.Spelled v
  | .arith op a b,ls => ∃ u w v, ls = u ++ w::v ∧
      (w.text,op) ∈ Parser.products ++ Parser.sums ∧ a.Spelled u ∧ b.Spelled v
  | .signed op e,ls => ∃ w u, ls = w::u ∧ (w.text,op) ∈ Parser.signs ∧ e.Spelled u
  | .float _,ls => ∃ l, ls = [l] ∧ l.kind = .float
  | .int n,ls => ∃ l, ls = [l] ∧ l.kind = .int ∧ Number.readInt l.text = .ok n
  | .string t,ls => ∃ l, ls = [l] ∧ l.kind = .string ∧ decodeLiteral l.text = t
  | .bool b,ls => ∃ l, ls = [l] ∧ (l.text,.bool b) ∈ Parser.constants
  | .nil,ls => ∃ l, ls = [l] ∧ (l.text,.nil) ∈ Parser.constants
  | .cell view key,ls => ∃ r v o k c, ls = r::(v ++ o::(k ++ [c])) ∧ r.text = Text.ofString "row" ∧
      ViewSpelled view v ∧ o.text = Text.ofString "[" ∧ OptionSpelled key k ∧
      c.text = Text.ofString "]"
  | .slice view lo hi,ls => ∃ r v o k m j c, ls = r::(v ++ o::(k ++ m::(j ++ [c]))) ∧
      r.text = Text.ofString "row" ∧ ViewSpelled view v ∧ o.text = Text.ofString "[" ∧
      OptionSpelled lo k ∧ m.text = Text.ofString ":" ∧ OptionSpelled hi j ∧
      c.text = Text.ofString "]"
  | .call f args,ls => ∃ l o k c, ls = l::o::(k ++ [c]) ∧ l.kind = .name ∧ l.text = f ∧
      o.text = Text.ofString "(" ∧ ItemsSpelled args k ∧ c.text = Text.ofString ")"
  | .var n _,ls => ∃ l, ls = [l] ∧ l.kind = .name ∧ l.text = n
  | .paren e,ls => ∃ o u c, ls = o::(u ++ [c]) ∧ o.text = Text.ofString "(" ∧ e.Spelled u ∧
      c.text = Text.ofString ")"

@[simp]
def OptionSpelled : Option Expr → List Lexeme → Prop
  | none,ls => ls = []
  | some e,ls => e.Spelled ls

@[simp]
def ItemsSpelled : List Expr → List Lexeme → Prop
  | [],ls => ls = []
  | e::es,ls => ∃ u rest, ls = u ++ rest ∧ e.Spelled u ∧ MoreSpelled es rest

@[simp]
def MoreSpelled : List Expr → List Lexeme → Prop
  | [],ls => ls = []
  | e::es,ls => ∃ c u rest, ls = c::(u ++ rest) ∧ c.text = Text.ofString "," ∧ e.Spelled u ∧
      MoreSpelled es rest

end

/-- A parser that takes a spelling of the tree it gives. -/
def Parser.Sound (p : Parser Expr) : Prop :=
  ∀ ⦃ls e rest⦄, p ls = some (e,rest) → ∃ used, ls = used ++ rest ∧ e.Spelled used

namespace Parser

lemma choose?_eq_some {α : Type} {words : List (Text × α)} {l : Lexeme} {a : α}
    (h : choose? words l = some a) : (l.text,a) ∈ words := by
  simp only [choose?,Option.map_eq_some_iff] at h
  obtain ⟨⟨w,b⟩,hw,rfl⟩ := h
  have hm := List.mem_of_find?_eq_some hw
  have ht := List.find?_some hw
  simp only [isWord,beq_iff_eq] at ht
  rw [ht]
  exact hm

lemma expect_eq_some {word : Text} {ls rest : List Lexeme} {u : Unit}
    (h : expect word ls = some (u,rest)) : ∃ l, ls = l::rest ∧ l.text = word := by
  cases ls with
  | nil => simp [expect] at h
  | cons l ls =>
    simp only [expect,isWord,Option.ite_none_right_eq_some,Option.some.injEq,Prod.mk.injEq,
      beq_iff_eq] at h
    exact ⟨l,by rw [h.2.2],h.1⟩

lemma oneOf_eq_some {α : Type} {words : List (Text × α)} {ls rest : List Lexeme} {a : α}
    (h : oneOf words ls = some (a,rest)) : ∃ l, ls = l::rest ∧ (l.text,a) ∈ words := by
  cases ls with
  | nil => simp [oneOf] at h
  | cons l ls =>
    simp only [oneOf,Option.map_eq_some_iff,Prod.mk.injEq] at h
    obtain ⟨b,hb,rfl,rfl⟩ := h
    exact ⟨l,rfl,choose?_eq_some hb⟩

lemma optional_eq_some {α : Type} {p : Parser α} {ls rest : List Lexeme} {o : Option α}
    (h : optional p ls = some (o,rest)) :
    (∃ a, o = some a ∧ p ls = some (a,rest)) ∨ (o = none ∧ rest = ls ∧ p ls = none) := by
  unfold optional at h
  split at h
  · next a r hp =>
    simp only [Option.some.injEq,Prod.mk.injEq] at h
    obtain ⟨rfl,rfl⟩ := h
    exact Or.inl ⟨a,rfl,hp⟩
  · next hp =>
    simp only [Option.some.injEq,Prod.mk.injEq] at h
    exact Or.inr ⟨h.1.symm,h.2.symm,hp⟩

/-- What each step of an extension keeps holds of its result. -/
lemma extend_eq_some {α : Type} {p : α → Parser α} {P : α → List Lexeme → Prop}
    (hp : ∀ a ls b rest, P a ls → p a ls = some (b,rest) → P b rest)
    {fuel : ℕ} {a b : α} {ls rest : List Lexeme} (ha : P a ls)
    (h : extend p fuel a ls = some (b,rest)) : P b rest := by
  induction fuel generalizing a ls with
  | zero =>
    simp only [extend,Option.some.injEq,Prod.mk.injEq] at h
    obtain ⟨rfl,rfl⟩ := h
    exact ha
  | succ fuel ih =>
    rw [extend] at h
    split at h
    · next c r hc => exact ih (hp a ls c r ha hc) h
    · simp only [Option.some.injEq,Prod.mk.injEq] at h
      obtain ⟨rfl,rfl⟩ := h
      exact ha

lemma Sound.chain {β : Type} {operand : Parser Expr} {operators : List (Text × β)}
    {join : β → Expr → Expr → Expr} (ho : Sound operand)
    (hj : ∀ op a b u w v, (w.text,op) ∈ operators → a.Spelled u → b.Spelled v →
      (join op a b).Spelled (u ++ w::v)) : Sound (chain operand operators join) := by
  intro ls e rest h
  simp only [Parser.chain,Option.bind_eq_bind,Option.bind_eq_some_iff] at h
  obtain ⟨⟨first,after⟩,hf,h⟩ := h
  refine extend_eq_some (P := fun a s => ∃ used, ls = used ++ s ∧ a.Spelled used) ?_ (ho hf) h
  rintro a s b rest ⟨used,rfl,hu⟩ hs
  simp only [Option.bind_eq_some_iff] at hs
  obtain ⟨⟨op,s1⟩,hop,⟨right,s2⟩,hr,hs⟩ := hs
  obtain ⟨w,rfl,hw⟩ := oneOf_eq_some hop
  obtain ⟨v,rfl,hv⟩ := ho hr
  simp only [Option.pure_def,Option.some.injEq,Prod.mk.injEq] at hs
  obtain ⟨rfl,rfl⟩ := hs
  exact ⟨used ++ w::v,by simp,hj op a right used w v hw hu hv⟩

lemma moreSpelled_append {es : List Expr} {e : Expr} {u v : List Lexeme} {c : Lexeme}
    (hu : MoreSpelled es u) (hc : c.text = Text.ofString ",") (hv : e.Spelled v) :
    MoreSpelled (es ++ [e]) (u ++ c::v) := by
  induction es generalizing u with
  | nil =>
    simp only [MoreSpelled] at hu
    subst hu
    simp only [List.nil_append,MoreSpelled]
    exact ⟨c,v,[],by simp,hc,hv,rfl⟩
  | cons f es ih =>
    simp only [MoreSpelled] at hu
    obtain ⟨d,w,rest,rfl,hd,hf,hr⟩ := hu
    simp only [List.cons_append,MoreSpelled]
    exact ⟨d,w,rest ++ c::v,by simp,hd,hf,ih hr⟩

lemma list_eq_some {expr : Parser Expr} (he : Sound expr) {ls rest : List Lexeme}
    {es : List Expr} (h : list expr ls = some (es,rest)) :
    ∃ used, ls = used ++ rest ∧ ItemsSpelled es used ∧ es ≠ [] := by
  simp only [Parser.list,Option.bind_eq_bind,Option.bind_eq_some_iff] at h
  obtain ⟨⟨first,after⟩,hf,h⟩ := h
  refine extend_eq_some
    (P := fun es s => ∃ used, ls = used ++ s ∧ ItemsSpelled es used ∧ es ≠ []) ?_ ?_ h
  · rintro items s more rest ⟨used,rfl,hi,hne⟩ hs
    simp only [Option.bind_eq_some_iff] at hs
    obtain ⟨⟨_,s1⟩,hs1,⟨next,s2⟩,hn,hs⟩ := hs
    obtain ⟨c,rfl,hc⟩ := expect_eq_some hs1
    obtain ⟨v,rfl,hv⟩ := he hn
    simp only [Option.pure_def,Option.some.injEq,Prod.mk.injEq] at hs
    obtain ⟨rfl,rfl⟩ := hs
    obtain ⟨e,es,rfl⟩ := List.exists_cons_of_ne_nil hne
    simp only [ItemsSpelled] at hi
    obtain ⟨u,w,rfl,hu,hw⟩ := hi
    refine ⟨u ++ (w ++ c::v),by simp,?_,by simp⟩
    simp only [List.cons_append,ItemsSpelled]
    exact ⟨u,w ++ c::v,rfl,hu,moreSpelled_append hw hc hv⟩
  · obtain ⟨used,rfl,hu⟩ := he hf
    refine ⟨used,rfl,?_,by simp⟩
    simp only [ItemsSpelled]
    exact ⟨used,[],by simp,hu,rfl⟩

lemma optional_viewName_eq_some {ls rest : List Lexeme} {view : Option Text}
    (h : optional viewName ls = some (view,rest)) :
    ∃ used, ls = used ++ rest ∧ ViewSpelled view used := by
  rcases optional_eq_some h with ⟨v,rfl,hv⟩ | ⟨rfl,rfl,-⟩
  · simp only [viewName,Option.bind_eq_bind,Option.bind_eq_some_iff] at hv
    obtain ⟨⟨_,s⟩,hs,hv⟩ := hv
    obtain ⟨d,rfl,hd⟩ := expect_eq_some hs
    cases s with
    | nil => simp at hv
    | cons l s =>
      simp only [Option.ite_none_right_eq_some,Option.some.injEq,Prod.mk.injEq] at hv
      obtain ⟨hk,rfl,rfl⟩ := hv
      exact ⟨[d,l],rfl,d,l,rfl,hd,hk,rfl⟩
  · exact ⟨[],rfl,rfl⟩

lemma optional_eq_spelled {expr : Parser Expr} (he : Sound expr) {ls rest : List Lexeme}
    {o : Option Expr} (h : optional expr ls = some (o,rest)) :
    ∃ used, ls = used ++ rest ∧ OptionSpelled o used := by
  rcases optional_eq_some h with ⟨e,rfl,hv⟩ | ⟨rfl,rfl,-⟩
  · exact he hv
  · exact ⟨[],rfl,rfl⟩

section Levels

variable {expr : Parser Expr} (he : Sound expr)
include he

lemma Sound.rowRef : Sound (rowRef expr) := by
  intro ls e rest h
  simp only [Parser.rowRef,Option.bind_eq_bind,Option.bind_eq_some_iff] at h
  obtain ⟨⟨_,s1⟩,h1,⟨view,s2⟩,h2,⟨_,s3⟩,h3,⟨lo,s4⟩,h4,⟨tail,s5⟩,h5,⟨_,s6⟩,h6,h⟩ := h
  obtain ⟨r,rfl,hr⟩ := expect_eq_some h1
  obtain ⟨v,rfl,hv⟩ := optional_viewName_eq_some h2
  obtain ⟨o,rfl,ho⟩ := expect_eq_some h3
  obtain ⟨k,rfl,hk⟩ := optional_eq_spelled he h4
  obtain ⟨c,rfl,hc⟩ := expect_eq_some h6
  rcases optional_eq_some h5 with ⟨hi,rfl,ht⟩ | ⟨rfl,rfl,-⟩
  · simp only [sliceTail,Option.bind_eq_bind,Option.bind_eq_some_iff] at ht
    obtain ⟨⟨_,s7⟩,h7,ht⟩ := ht
    obtain ⟨m,rfl,hm⟩ := expect_eq_some h7
    obtain ⟨j,rfl,hj⟩ := optional_eq_spelled he ht
    simp only [Option.pure_def,Option.some.injEq,Prod.mk.injEq] at h
    obtain ⟨rfl,rfl⟩ := h
    refine ⟨r::(v ++ o::(k ++ m::(j ++ [c]))),by simp,?_⟩
    simp only [Expr.Spelled]
    exact ⟨r,v,o,k,m,j,c,rfl,hr,hv,ho,hk,hm,hj,hc⟩
  · simp only [Option.pure_def,Option.some.injEq,Prod.mk.injEq] at h
    obtain ⟨rfl,rfl⟩ := h
    refine ⟨r::(v ++ o::(k ++ [c])),by simp,?_⟩
    simp only [Expr.Spelled]
    exact ⟨r,v,o,k,c,rfl,hr,hv,ho,hk,hc⟩

lemma Sound.call : Sound (call expr) := by
  intro ls e rest h
  cases ls with
  | nil => simp [Parser.call] at h
  | cons l s =>
    simp only [Parser.call,Option.bind_eq_bind] at h
    split_ifs at h with hk
    · simp at h
    simp only [Option.bind_eq_some_iff] at h
    obtain ⟨⟨_,s1⟩,h1,⟨args,s2⟩,h2,⟨_,s3⟩,h3,h⟩ := h
    obtain ⟨o,rfl,ho⟩ := expect_eq_some h1
    obtain ⟨c,rfl,hc⟩ := expect_eq_some h3
    simp only [Option.pure_def,Option.some.injEq,Prod.mk.injEq] at h
    obtain ⟨rfl,rfl⟩ := h
    have hargs : ∃ used, s1 = used ++ c::s3 ∧ ItemsSpelled (args.getD []) used := by
      rcases optional_eq_some h2 with ⟨es,rfl,hes⟩ | ⟨rfl,rfl,-⟩
      · obtain ⟨used,hu,hi,-⟩ := list_eq_some he hes
        exact ⟨used,hu,hi⟩
      · exact ⟨[],rfl,rfl⟩
    obtain ⟨k,rfl,hi⟩ := hargs
    refine ⟨l::o::(k ++ [c]),by simp,?_⟩
    simp only [Expr.Spelled]
    exact ⟨l,o,k,c,rfl,by simpa using hk,rfl,ho,hi,hc⟩

lemma Sound.paren : Sound (paren expr) := by
  intro ls e rest h
  simp only [Parser.paren,Option.bind_eq_bind,Option.bind_eq_some_iff] at h
  obtain ⟨⟨_,s1⟩,h1,⟨inner,s2⟩,h2,⟨_,s3⟩,h3,h⟩ := h
  obtain ⟨o,rfl,ho⟩ := expect_eq_some h1
  obtain ⟨u,rfl,hu⟩ := he h2
  obtain ⟨c,rfl,hc⟩ := expect_eq_some h3
  simp only [Option.pure_def,Option.some.injEq,Prod.mk.injEq] at h
  obtain ⟨rfl,rfl⟩ := h
  refine ⟨o::(u ++ [c]),by simp,?_⟩
  simp only [Expr.Spelled]
  exact ⟨o,u,c,rfl,ho,hu,hc⟩

omit he

lemma spelled_of_literal? {l : Lexeme} {e : Expr} (h : literal? l = some e) : e.Spelled [l] := by
  unfold literal? at h
  split at h
  · next hk =>
    obtain ⟨v,-,rfl⟩ := Option.map_eq_some_iff.mp h
    simp only [Expr.Spelled]
    exact ⟨l,rfl,hk⟩
  · next hk =>
    obtain ⟨v,hv,rfl⟩ := Option.map_eq_some_iff.mp h
    simp only [Expr.Spelled]
    refine ⟨l,rfl,hk,?_⟩
    cases hr : Number.readInt l.text with
    | error e => simp [hr,Except.toOption] at hv
    | ok n => simpa [hr,Except.toOption] using hv
  · next hk =>
    simp only [Option.some.injEq] at h
    subst h
    simp only [Expr.Spelled]
    exact ⟨l,rfl,hk,rfl⟩
  · simp at h

lemma spelled_of_constant {l : Lexeme} {e : Expr} (h : (l.text,e) ∈ constants) :
    e.Spelled [l] := by
  have hall : ∀ p ∈ constants, (∃ b, p.2 = .bool b) ∨ p.2 = .nil := by
    simp [constants]
  rcases hall _ h with ⟨b,hb⟩ | hb
  all_goals
    dsimp only at hb
    subst hb
    simp only [Expr.Spelled]
    exact ⟨l,rfl,h⟩

lemma Sound.constant : Sound constant := by
  intro ls e rest h
  cases ls with
  | nil => simp [Parser.constant] at h
  | cons l s =>
    simp only [Parser.constant,Option.map_eq_some_iff,Prod.mk.injEq] at h
    obtain ⟨x,hx,rfl,rfl⟩ := h
    refine ⟨[l],rfl,?_⟩
    rw [Option.orElse_eq_or,Option.or_eq_some_iff] at hx
    rcases hx with hx | ⟨-,hx⟩
    · exact spelled_of_literal? hx
    · exact spelled_of_constant (choose?_eq_some hx)

lemma Sound.var : Sound var := by
  intro ls e rest h
  cases ls with
  | nil => simp [Parser.var] at h
  | cons l s =>
    simp only [Parser.var,Option.ite_none_right_eq_some,Option.some.injEq,Prod.mk.injEq] at h
    obtain ⟨hk,rfl,rfl⟩ := h
    refine ⟨[l],rfl,?_⟩
    simp only [Expr.Spelled]
    exact ⟨l,rfl,hk,rfl⟩

include he

lemma Sound.primary : Sound (primary expr) := by
  intro ls e rest h
  simp only [Parser.primary,Option.orElse_eq_orElse,Option.orElse_eq_or,Option.or_eq_some_iff] at h
  rcases h with h | ⟨-,h | ⟨-,h | ⟨-,h | ⟨-,h⟩⟩⟩⟩
  · exact Sound.constant h
  · exact Sound.rowRef he h
  · exact Sound.call he h
  · exact Sound.var h
  · exact Sound.paren he h

lemma Sound.signed : Sound (signed expr) := by
  intro ls
  induction ls with
  | nil =>
    intro e rest h
    simp [Parser.signed] at h
  | cons l ls ih =>
    intro e rest h
    rw [Parser.signed] at h
    split at h
    · next sign hs =>
      obtain ⟨⟨x,r⟩,hx,hp⟩ := Option.map_eq_some_iff.mp h
      simp only [Prod.mk.injEq] at hp
      obtain ⟨rfl,rfl⟩ := hp
      obtain ⟨u,rfl,hu⟩ := ih hx
      refine ⟨l::u,rfl,?_⟩
      simp only [Expr.Spelled]
      exact ⟨l,u,rfl,choose?_eq_some hs,hu⟩
    · exact Sound.primary he h

lemma Sound.product : Sound (product expr) := by
  refine (Sound.signed he).chain ?_
  intro op a b u w v hw ha hb
  simp only [Expr.Spelled]
  exact ⟨u,w,v,rfl,List.mem_append_left _ hw,ha,hb⟩

lemma Sound.sum : Sound (sum expr) := by
  refine (Sound.product he).chain ?_
  intro op a b u w v hw ha hb
  simp only [Expr.Spelled]
  exact ⟨u,w,v,rfl,List.mem_append_right _ hw,ha,hb⟩

lemma Sound.comparison : Sound (comparison expr) := by
  intro ls e rest h
  simp only [Parser.comparison,Option.bind_eq_bind,Option.bind_eq_some_iff] at h
  obtain ⟨⟨left,s1⟩,hl,h⟩ := h
  obtain ⟨u,rfl,hu⟩ := Sound.sum he hl
  split at h
  · next op right s2 ht =>
    simp only [Option.bind_eq_some_iff] at ht
    obtain ⟨⟨op',s3⟩,hop,⟨right',s4⟩,hr,ht⟩ := ht
    simp only [Option.pure_def,Option.some.injEq,Prod.mk.injEq] at h ht
    obtain ⟨⟨rfl,rfl⟩,rfl⟩ := ht
    obtain ⟨rfl,rfl⟩ := h
    obtain ⟨w,rfl,hw⟩ := oneOf_eq_some hop
    obtain ⟨v,rfl,hv⟩ := Sound.sum he hr
    refine ⟨u ++ w::v,by simp,?_⟩
    simp only [Expr.Spelled]
    exact ⟨u,w,v,rfl,hw,hu,hv⟩
  · simp only [Option.pure_def,Option.some.injEq,Prod.mk.injEq] at h
    obtain ⟨rfl,rfl⟩ := h
    exact ⟨u,rfl,hu⟩

lemma Sound.negation : Sound (negation expr) := by
  intro ls
  induction ls with
  | nil =>
    intro e rest h
    simp [Parser.negation] at h
  | cons l ls ih =>
    intro e rest h
    rw [Parser.negation] at h
    split at h
    · exact Sound.comparison he h
    · next hw =>
      split at h
      · next x r hx =>
        simp only [Option.some.injEq,Prod.mk.injEq] at h
        obtain ⟨rfl,rfl⟩ := h
        obtain ⟨u,rfl,hu⟩ := ih hx
        refine ⟨l::u,rfl,?_⟩
        simp only [Expr.Spelled]
        exact ⟨l,u,rfl,choose?_eq_some hw,hu⟩
      · exact Sound.comparison he h

lemma Sound.conjunction : Sound (conjunction expr) := by
  refine (Sound.negation he).chain ?_
  intro op a b u w v hw ha hb
  simp only [Expr.Spelled]
  exact ⟨u,w,v,rfl,hw,ha,hb⟩

lemma Sound.disjunction : Sound (disjunction expr) := by
  refine (Sound.conjunction he).chain ?_
  intro op a b u w v hw ha hb
  simp only [Expr.Spelled]
  exact ⟨u,w,v,rfl,hw,ha,hb⟩

end Levels

/-- Expressions nested to any depth take a spelling of their tree. -/
theorem Sound.expr (depth : ℕ) : Sound (Parser.expr depth) := by
  induction depth with
  | zero =>
    intro ls e rest h
    simp [Parser.expr] at h
  | succ depth ih => exact Sound.disjunction ih

lemma Sound.expression : Sound expression := fun ls _ _ h => Sound.expr (ls.length+1) h

lemma whole?_eq_some_iff {α : Type} {p : Parser α} {src : Text} {a : α} :
    whole? p src = some a ↔ ∃ ls, lex? src = some ls ∧ p ls = some (a,[]) := by
  refine ⟨fun h => ?_,?_⟩
  · unfold whole? at h
    split at h
    · next b hb =>
      simp only [Option.some.injEq] at h
      subst h
      exact Option.bind_eq_some_iff.mp hb
    · simp at h
  · rintro ⟨ls,hl,hp⟩
    simp [whole?,hl,hp]

end Parser

/-- A source compiles when it is not blank and all of its lexemes make up one expression. -/
theorem Formula.compile_eq_ok_iff {src : Text} {f : Formula} : Formula.compile src = .ok f ↔
    Text.blankOnly src = false ∧ f.source = src ∧
      ∃ ls, lex? src = some ls ∧ Parser.expression ls = some (f.expr,[]) := by
  rw [← Parser.whole?_eq_some_iff,Formula.compile]
  cases hb : Text.blankOnly src with
  | true => simp
  | false =>
    cases hw : Parser.whole? Parser.expression src with
    | none => simp
    | some e =>
      obtain ⟨source,expr⟩ := f
      simp only [Bool.false_eq_true,if_false,Except.ok.injEq,Formula.mk.injEq,Option.some.injEq,
        true_and]
      exact ⟨fun h => ⟨h.1.symm,h.2⟩,fun h => ⟨h.1.symm,h.2⟩⟩

end CellScript.Script
