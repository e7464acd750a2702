import Mathlib
import CellScript.Proofs.Script.Spelling

/-! Expressions that differ only in the places of their names, and perhaps in keys that stand for the
same cell. -/
namespace CellScript.Script

section

variable (K : Text → Int64 → Prop)

mutual

/-- The same tree, whatever the places of names. A column name that is a key may have been exchanged
for a position that K allows for it. -/
def Expr.Alike : Expr → Expr → Prop
  | .or a b,e => ∃ a' b', e = .or a' b' ∧ a.Alike a' ∧ b.Alike b'
  | .and a b,e => ∃ a' b', e = .and a' b' ∧ a.Alike a' ∧ b.Alike b'
  | .not a,e => ∃ a', e = .not a' ∧ a.Alike a'
  | .compare op a b,e => ∃ a' b', e = .compare op a' b' ∧ a.Alike a' ∧ b.Alike b'
  | .arith op a b,e => ∃ a' b', e = .arith op a' b' ∧ a.Alike a' ∧ b.Alike b'
  | .signed op a,e => ∃ a', e = .signed op a' ∧ a.Alike a'
  | .float x,e => e = .float x
  | .int n,e => e = .int n
  | .string t,e => e = .string t
  | .bool b,e => e = .bool b
  | .nil,e => e = .nil
  | .cell view key,e => ∃ key', e = .cell view key' ∧
      (OptionAlike key key' ∨ ∃ n i, key = some (.string n) ∧ key' = some (.int i) ∧ K n i)
  | .slice view lo hi,e => ∃ lo' hi', e = .slice view lo' hi' ∧ OptionAlike lo lo' ∧
      OptionAlike hi hi'
  | .call f args,e => ∃ args', e = .call f args' ∧ ListAlike args args'
  | .var n _,e => ∃ pos, e = .var n pos
  | .paren a,e => ∃ a', e = .paren a' ∧ a.Alike a'

def OptionAlike : Option Expr → Option Expr → Prop
  | none,o => o = none
  | some a,o => ∃ a', o = some a' ∧ a.Alike a'

def ListAlike : List Expr → List Expr → Prop
  | [],es => es = []
  | a::as,es => ∃ a' as', es = a'::as' ∧ a.Alike a' ∧ ListAlike as as'

end

end

/-- The same tree up to the places of names. -/
def Expr.SameTree : Expr → Expr → Prop := Expr.Alike fun _ _ => False

mutual

lemma Expr.alike_refl {K : Text → Int64 → Prop} : ∀ e : Expr, e.Alike K e
  | .or a b | .and a b | .compare _ a b | .arith _ a b => by
    simp only [Expr.Alike]
    exact ⟨a,b,rfl,a.alike_refl,b.alike_refl⟩
  | .not a | .signed _ a | .paren a => by
    simp only [Expr.Alike]
    exact ⟨a,rfl,a.alike_refl⟩
  | .float _ | .int _ | .string _ | .bool _ | .nil => by simp only [Expr.Alike]
  | .cell _ key => by
    simp only [Expr.Alike]
    exact ⟨key,rfl,Or.inl (optionAlike_refl key)⟩
  | .slice _ lo hi => by
    simp only [Expr.Alike]
    exact ⟨lo,hi,rfl,optionAlike_refl lo,optionAlike_refl hi⟩
  | .call _ args => by
    simp only [Expr.Alike]
    exact ⟨args,rfl,listAlike_refl args⟩
  | .var _ pos => by
    simp only [Expr.Alike]
    exact ⟨pos,rfl⟩

lemma optionAlike_refl {K : Text → Int64 → Prop} : ∀ o : Option Expr, OptionAlike K o o
  | none => by simp only [OptionAlike]
  | some a => by
    simp only [OptionAlike]
    exact ⟨a,rfl,a.alike_refl⟩

lemma listAlike_refl {K : Text → Int64 → Prop} : ∀ es : List Expr, ListAlike K es es
  | [] => by simp only [ListAlike]
  | a::as => by
    simp only [ListAlike]
    exact ⟨a,as,rfl,a.alike_refl,listAlike_refl as⟩

end

lemma listAlike_append {K : Text → Int64 → Prop} {as bs : List Expr} {a b : Expr}
    (h : ListAlike K as bs) (hab : a.Alike K b) : ListAlike K (as ++ [a]) (bs ++ [b]) := by
  induction as generalizing bs with
  | nil =>
    simp only [ListAlike] at h
    subst h
    simp only [List.nil_append,ListAlike]
    exact ⟨b,[],rfl,hab,rfl⟩
  | cons c as ih =>
    simp only [ListAlike] at h
    obtain ⟨d,ds,rfl,hcd,hds⟩ := h
    simp only [List.cons_append,ListAlike]
    exact ⟨d,ds ++ [b],rfl,hcd,ih hds⟩

mutual

/-- How many lexemes an expression is spelled with. -/
def Expr.size : Expr → ℕ
  | .or a b | .and a b | .compare _ a b | .arith _ a b => a.size + b.size + 1
  | .not a | .signed _ a => a.size + 1
  | .float _ | .int _ | .string _ | .bool _ | .nil | .var _ _ => 1
  | .cell view key => 3 + 2*view.toList.length + optionSize key
  | .slice view lo hi => 4 + 2*view.toList.length + optionSize lo + optionSize hi
  | .call _ args => 3 + itemsSize args
  | .paren a => a.size + 2

def optionSize : Option Expr → ℕ
  | none => 0
  | some a => a.size

def itemsSize : List Expr → ℕ
  | [] => 0
  | a::as => a.size + moreSize as

def moreSize : List Expr → ℕ
  | [] => 0
  | a::as => a.size + moreSize as + 1

end

mutual

lemma alike_size {K : Text → Int64 → Prop} :
    ∀ (a : Expr) {b : Expr}, a.Alike K b → b.size = a.size
  | .or a b,_,h => by
    simp only [Expr.Alike] at h
    obtain ⟨a',b',rfl,ha,hb⟩ := h
    simp only [Expr.size,alike_size a ha,alike_size b hb]
  | .and a b,_,h => by
    simp only [Expr.Alike] at h
    obtain ⟨a',b',rfl,ha,hb⟩ := h
    simp only [Expr.size,alike_size a ha,alike_size b hb]
  | .not a,_,h => by
    simp only [Expr.Alike] at h
    obtain ⟨a',rfl,ha⟩ := h
    simp only [Expr.size,alike_size a ha]
  | .compare op a b,_,h => by
    simp only [Expr.Alike] at h
    obtain ⟨a',b',rfl,ha,hb⟩ := h
    simp only [Expr.size,alike_size a ha,alike_size b hb]
  | .arith op a b,_,h => by
    simp only [Expr.Alike] at h
    obtain ⟨a',b',rfl,ha,hb⟩ := h
    simp only [Expr.size,alike_size a ha,alike_size b hb]
  | .signed op a,_,h => by
    simp only [Expr.Alike] at h
    obtain ⟨a',rfl,ha⟩ := h
    simp only [Expr.size,alike_size a ha]
  | .float _,_,h | .int _,_,h | .string _,_,h | .bool _,_,h | .nil,_,h => by
    simp only [Expr.Alike] at h
    rw [h]
  | .cell view key,_,h => by
    simp only [Expr.Alike] at h
    obtain ⟨key',rfl,hk | ⟨n,i,rfl,rfl,-⟩⟩ := h
    · simp only [Expr.size,alike_optionSize key hk]
    · simp only [Expr.size,optionSize]
  | .slice view lo hi,_,h => by
    simp only [Expr.Alike] at h
    obtain ⟨lo',hi',rfl,hl,hh⟩ := h
    simp only [Expr.size,alike_optionSize lo hl,alike_optionSize hi hh]
  | .call f args,_,h => by
    simp only [Expr.Alike] at h
    obtain ⟨args',rfl,ha⟩ := h
    simp only [Expr.size,(alike_itemsSize args ha).1]
  | .var n _,_,h => by
    simp only [Expr.Alike] at h
    obtain ⟨pos,rfl⟩ := h
    rfl
  | .paren a,_,h => by
    simp only [Expr.Alike] at h
    obtain ⟨a',rfl,ha⟩ := h
    simp only [Expr.size,alike_size a ha]

lemma alike_optionSize {K : Text → Int64 → Prop} :
    ∀ (a : Option Expr) {b : Option Expr}, OptionAlike K a b → optionSize b = optionSize a
  | none,_,h => by
    simp only [OptionAlike] at h
    rw [h]
  | some a,_,h => by
    simp only [OptionAlike] at h
    obtain ⟨a',rfl,ha⟩ := h
    simp only [optionSize,alike_size a ha]

lemma alike_itemsSize {K : Text → Int64 → Prop} :
    ∀ (as : List Expr) {bs : List Expr}, ListAlike K as bs →
      itemsSize bs = itemsSize as ∧ moreSize bs = moreSize as
  | [],_,h => by
    simp only [ListAlike] at h
    rw [h]
    exact ⟨rfl,rfl⟩
  | a::as,_,h => by
    simp only [ListAlike] at h
    obtain ⟨a',as',rfl,ha,has⟩ := h
    have hs := alike_size a ha
    have hm := (alike_itemsSize as has).2
    exact ⟨by simp only [itemsSize,hs,hm],by simp only [moreSize,hs,hm]⟩

end

lemma ViewSpelled.length_eq {view : Option Text} {ls : List Lexeme} (h : ViewSpelled view ls) :
    ls.length = 2*view.toList.length := by
  cases view with
  | none =>
    simp only [ViewSpelled] at h
    rw [h]
    rfl
  | some view =>
    obtain ⟨d,l,rfl,-⟩ := h
    rfl

mutual

/-- An expression is spelled with as many lexemes as its size. -/
theorem length_of_spelled : ∀ (e : Expr) {ls : List Lexeme}, e.Spelled ls → ls.length = e.size
  | .or a b,_,h | .and a b,_,h | .compare _ a b,_,h | .arith _ a b,_,h => by
    simp only [Expr.Spelled] at h
    obtain ⟨u,w,v,rfl,-,ha,hb⟩ := h
    simp only [Expr.size,List.length_append,List.length_cons,← length_of_spelled a ha,← length_of_spelled b hb]
    omega
  | .not a,_,h | .signed _ a,_,h => by
    simp only [Expr.Spelled] at h
    obtain ⟨w,u,rfl,-,ha⟩ := h
    simp only [Expr.size,List.length_cons,← length_of_spelled a ha]
  | .float _,_,h | .int _,_,h | .string _,_,h | .bool _,_,h | .nil,_,h | .var _ _,_,h => by
    simp only [Expr.Spelled] at h
    obtain ⟨l,rfl,-⟩ := h
    rfl
  | .cell view key,_,h => by
    simp only [Expr.Spelled] at h
    obtain ⟨r,v,o,k,c,rfl,-,hv,-,hk,-⟩ := h
    simp only [Expr.size,List.length_append,List.length_cons,List.length_nil,hv.length_eq,
      ← length_of_optionSpelled key hk]
    omega
  | .slice view lo hi,_,h => by
    simp only [Expr.Spelled] at h
    obtain ⟨r,v,o,k,m,j,c,rfl,-,hv,-,hk,-,hj,-⟩ := h
    simp only [Expr.size,List.length_append,List.length_cons,List.length_nil,hv.length_eq,
      ← length_of_optionSpelled lo hk,← length_of_optionSpelled hi hj]
    omega
  | .call f args,_,h => by
    simp only [Expr.Spelled] at h
    obtain ⟨l,o,k,c,rfl,-,-,-,hk,-⟩ := h
    simp only [Expr.size,List.length_append,List.length_cons,List.length_nil,
      ← length_of_itemsSpelled args hk]
    omega
  | .paren a,_,h => by
    simp only [Expr.Spelled] at h
    obtain ⟨o,u,c,rfl,-,ha,-⟩ := h
    simp only [Expr.size,List.length_append,List.length_cons,List.length_nil,← length_of_spelled a ha]

lemma length_of_optionSpelled : ∀ (o : Option Expr) {ls : List Lexeme}, OptionSpelled o ls →
    ls.length = optionSize o
  | none,_,h => by
    simp only [OptionSpelled] at h
    rw [h]
    rfl
  | some a,_,h => by
    simp only [OptionSpelled] at h
    exact length_of_spelled a h

lemma length_of_itemsSpelled : ∀ (es : List Expr) {ls : List Lexeme}, ItemsSpelled es ls →
    ls.length = itemsSize es
  | [],_,h => by
    simp only [ItemsSpelled] at h
    rw [h]
    rfl
  | e::es,_,h => by
    simp only [ItemsSpelled] at h
    obtain ⟨u,rest,rfl,he,hes⟩ := h
    simp only [itemsSize,List.length_append,← length_of_spelled e he,← length_of_moreSpelled es hes]

lemma length_of_moreSpelled : ∀ (es : List Expr) {ls : List Lexeme}, MoreSpelled es ls →
    ls.length = moreSize es
  | [],_,h => by
    simp only [MoreSpelled] at h
    rw [h]
    rfl
  | e::es,_,h => by
    simp only [MoreSpelled] at h
    obtain ⟨c,u,rest,rfl,-,he,hes⟩ := h
    simp only [moreSize,List.length_append,List.length_cons,← length_of_spelled e he,
      ← length_of_moreSpelled es hes]

end

end CellScript.Script
