import Mathlib
import CellScript.Proofs.Script.Neighbours

/-! The levels of precedence from inside out: when a chain of operators goes on, when it ends, and
how an operand passes through all levels. -/
namespace CellScript.Script.Parser

lemma choose?_eq_none {α : Type} {words : List (Text × α)} {l : Lexeme}
    (h : l.text ∉ words.map (·.1)) : choose? words l = none := by
  rw [choose?,Option.map_eq_none_iff,List.find?_eq_none]
  intro w hw he
  simp only [isWord,beq_iff_eq] at he
  exact h (he ▸ List.mem_map_of_mem hw)

/-- Lexemes that start with none of some words. -/
def Clear (words : List Text) (ls : List Lexeme) : Prop := ∀ l ∈ ls.head?, l.text ∉ words

lemma Clear.mono {words more : List Text} {ls : List Lexeme} (h : Clear more ls)
    (hs : words ⊆ more) : Clear words ls := fun l hl hw => h l hl (hs hw)

lemma oneOf_eq_none {α : Type} {words : List (Text × α)} {ls : List Lexeme}
    (h : Clear (words.map (·.1)) ls) : oneOf words ls = none := by
  cases ls with
  | nil => rfl
  | cons l ls => rw [oneOf,choose?_eq_none (h l rfl),Option.map_none]

lemma expect_eq_none {word : Text} {ls : List Lexeme} (h : Clear [word] ls) :
    expect word ls = none := by
  cases ls with
  | nil => rfl
  | cons l ls =>
    have hl := h l rfl
    rw [List.mem_singleton] at hl
    simp [expect,isWord,hl]

lemma expect_cons {word : Text} {l : Lexeme} (h : l.text = word) (ls : List Lexeme) :
    expect word (l::ls) = some ((),ls) := by simp [expect,isWord,h]

lemma optional_of_some {α : Type} {p : Parser α} {ls rest : List Lexeme} {a : α}
    (h : p ls = some (a,rest)) : optional p ls = some (some a,rest) := by rw [optional,h]

lemma optional_of_none {α : Type} {p : Parser α} {ls : List Lexeme} (h : p ls = none) :
    optional p ls = some (none,ls) := by rw [optional,h]

/-- A parser that takes at least one lexeme. -/
def Shrinks {α : Type} (p : Parser α) : Prop :=
  ∀ ⦃ls a rest⦄, p ls = some (a,rest) → rest.length < ls.length

lemma Sound.shrinks {p : Parser Expr} (h : Sound p) : Shrinks p := by
  intro ls e rest hp
  obtain ⟨used,rfl,hu⟩ := h hp
  obtain ⟨l,hl,-⟩ := hu.chained.opens
  cases used with
  | nil => simp at hl
  | cons x used => simp

lemma extend_of_none {α : Type} {p : α → Parser α} {a : α} {ls : List Lexeme} (h : p a ls = none)
    (fuel : ℕ) : extend p fuel a ls = some (a,ls) := by
  cases fuel with
  | zero => rfl
  | succ fuel => rw [extend,h]

lemma extend_of_some {α : Type} {p : α → Parser α} {a b : α} {ls rest : List Lexeme}
    (h : p a ls = some (b,rest)) (fuel : ℕ) :
    extend p (fuel+1) a ls = extend p fuel b rest := by rw [extend,h]

/-- More fuel than lexemes is never used. -/
lemma extend_fuel {α : Type} {p : α → Parser α} (hp : ∀ a, Shrinks (p a)) {fuel : ℕ} {a : α}
    {ls : List Lexeme} (hf : ls.length ≤ fuel) : extend p fuel a ls = extend p ls.length a ls := by
  induction fuel using Nat.strong_induction_on generalizing a ls with
  | _ fuel ih =>
    cases h : p a ls with
    | none => rw [extend_of_none h,extend_of_none h]
    | some found =>
      obtain ⟨b,rest⟩ := found
      have hs := hp a h
      obtain ⟨n,hn⟩ : ∃ n, ls.length = n+1 := ⟨ls.length-1,by omega⟩
      obtain ⟨m,rfl⟩ : ∃ m, fuel = m+1 := ⟨fuel-1,by omega⟩
      rw [extend_of_some h,hn,extend_of_some h,ih m (by omega) (by omega),ih n (by omega) (by omega)]

section Chain

variable {β : Type} {operand : Parser Expr} {operators : List (Text × β)}
  {join : β → Expr → Expr → Expr}

/-- One operator with its right operand. -/
def link {β : Type} (operand : Parser Expr) (operators : List (Text × β))
    (join : β → Expr → Expr → Expr) (left : Expr) : Parser Expr := fun ls => do
  let (op,ls) ← oneOf operators ls
  let (right,ls) ← operand ls
  return (join op left right,ls)

lemma link_shrinks (ho : Shrinks operand) (left : Expr) :
    Shrinks (link operand operators join left) := by
  intro ls e rest h
  simp only [link,Option.bind_eq_bind,Option.bind_eq_some_iff] at h
  obtain ⟨⟨op,s⟩,hop,⟨right,r⟩,hr,h⟩ := h
  simp only [Option.pure_def,Option.some.injEq,Prod.mk.injEq] at h
  obtain ⟨w,rfl,-⟩ := oneOf_eq_some hop
  have hs : r.length < s.length := ho hr
  simp only [List.length_cons]
  rw [← h.2]
  omega

/-- A chain that has come as far as some expression, with some lexemes left. -/
def Reached {β : Type} (operand : Parser Expr) (operators : List (Text × β))
    (join : β → Expr → Expr → Expr) (ls : List Lexeme) (e : Expr) (rest : List Lexeme) : Prop :=
  chain operand operators join ls = extend (link operand operators join) rest.length e rest

lemma Reached.start {ls rest : List Lexeme} {e : Expr} (h : operand ls = some (e,rest)) :
    Reached operand operators join ls e rest := by
  rw [Reached,chain,h]
  rfl

lemma Reached.step (ho : Shrinks operand) {ls mid rest : List Lexeme} {a b : Expr} {w : Lexeme}
    {op : β} (h : Reached operand operators join ls a (w::mid))
    (hw : choose? operators w = some op) (hb : operand mid = some (b,rest)) :
    Reached operand operators join ls (join op a b) rest := by
  have hl : link operand operators join a (w::mid) = some (join op a b,rest) := by
    simp [link,oneOf,hw,hb]
  rw [Reached,h,List.length_cons,extend_of_some hl]
  exact extend_fuel (link_shrinks ho) (ho hb).le

lemma Reached.stop {ls rest : List Lexeme} {e : Expr} (h : Reached operand operators join ls e rest)
    (hr : Clear (operators.map (·.1)) rest) :
    chain operand operators join ls = some (e,rest) := by
  rw [h]
  refine extend_of_none ?_ _
  simp [link,oneOf_eq_none hr]

end Chain

section Levels

variable {expr : Parser Expr} {ls rest : List Lexeme} {l : Lexeme} {e : Expr}

lemma signed_of_primary (h : primary expr (l::ls) = some (e,rest))
    (hl : l.text ∉ signs.map (·.1)) : signed expr (l::ls) = some (e,rest) := by
  rw [signed,choose?_eq_none hl]
  exact h

lemma product_of_signed (h : signed expr ls = some (e,rest))
    (hr : Clear (products.map (·.1)) rest) : product expr ls = some (e,rest) :=
  (Reached.start h).stop hr

lemma sum_of_product (h : product expr ls = some (e,rest)) (hr : Clear (sums.map (·.1)) rest) :
    sum expr ls = some (e,rest) :=
  (Reached.start h).stop hr

lemma comparison_of_sum (h : sum expr ls = some (e,rest))
    (hr : Clear (comparisons.map (·.1)) rest) : comparison expr ls = some (e,rest) := by
  simp [comparison,h,oneOf_eq_none hr]

lemma negation_of_comparison (h : comparison expr (l::ls) = some (e,rest))
    (hl : l.text ∉ negations.map (·.1)) : negation expr (l::ls) = some (e,rest) := by
  rw [negation,choose?_eq_none hl]
  exact h

lemma conjunction_of_negation (h : negation expr ls = some (e,rest))
    (hr : Clear (conjunctions.map (·.1)) rest) : conjunction expr ls = some (e,rest) :=
  (Reached.start h).stop hr

lemma disjunction_of_conjunction (h : conjunction expr ls = some (e,rest))
    (hr : Clear (disjunctions.map (·.1)) rest) : disjunction expr ls = some (e,rest) :=
  (Reached.start h).stop hr

/-- A sum that no operator follows is an expression. -/
lemma disjunction_of_sum (h : sum expr (l::ls) = some (e,rest))
    (hl : l.text ∉ negations.map (·.1)) (hr : Clear joints rest) :
    disjunction expr (l::ls) = some (e,rest) :=
  disjunction_of_conjunction (conjunction_of_negation (negation_of_comparison
    (comparison_of_sum h (hr.mono (by decide))) hl) (hr.mono (by decide))) (hr.mono (by decide))

/-- A signed operand that no operator follows is an expression. -/
lemma disjunction_of_signed (h : signed expr (l::ls) = some (e,rest))
    (hl : l.text ∉ negations.map (·.1)) (hr : Clear joints rest) :
    disjunction expr (l::ls) = some (e,rest) :=
  disjunction_of_sum (sum_of_product (product_of_signed h (hr.mono (by decide)))
    (hr.mono (by decide))) hl hr

/-- An operand without a sign that no operator follows is an expression. -/
lemma disjunction_of_primary (h : primary expr (l::ls) = some (e,rest)) (hl : l.text ∉ leaders)
    (hr : Clear joints rest) : disjunction expr (l::ls) = some (e,rest) := by
  refine disjunction_of_signed (signed_of_primary h ?_) ?_ hr
  · exact fun hm => hl (List.mem_append_right _ hm)
  · exact fun hm => hl (List.mem_append_left _ hm)

/-- A literal that no operator follows is an expression of its own. -/
lemma disjunction_of_literal (h : literal? l = some e) (hl : l.text ∉ leaders)
    (hr : Clear joints ls) : disjunction expr (l::ls) = some (e,ls) := by
  refine disjunction_of_primary ?_ hl hr
  simp [primary,constant,h]

end Levels

section Row

variable {expr : Parser Expr}

/-- The part of a reference to the row that follows its opening bracket. -/
def subscript (expr : Parser Expr) (view : Option Text) : Parser Expr := fun ls => do
  let (lo,ls) ← optional expr ls
  let (tail,ls) ← optional (sliceTail expr) ls
  let (_,ls) ← expect "]" ls
  match tail with
  | some hi => return (.slice view lo hi,ls)
  | none => return (.cell view lo,ls)

lemma subscript_cell (view : Option Text) {ls rest : List Lexeme} {c : Lexeme} {key : Option Expr}
    (hk : optional expr ls = some (key,c::rest)) (hc : c.text = Text.ofString "]") :
    subscript expr view ls = some (.cell view key,rest) := by
  have hcolon : expect ":" (c::rest) = none := by
    refine expect_eq_none fun x hx => ?_
    simp only [List.head?_cons,Option.mem_def,Option.some.injEq] at hx
    rw [← hx,hc]
    decide
  have htail : optional (sliceTail expr) (c::rest) = some (none,c::rest) :=
    optional_of_none (by simp [sliceTail,hcolon])
  simp [subscript,hk,htail,expect_cons hc]

lemma subscript_slice (view : Option Text) {ls more rest : List Lexeme} {m c : Lexeme}
    {lo hi : Option Expr} (hl : optional expr ls = some (lo,m::more))
    (hm : m.text = Text.ofString ":") (hh : optional expr more = some (hi,c::rest))
    (hc : c.text = Text.ofString "]") :
    subscript expr view ls = some (.slice view lo hi,rest) := by
  have htail : optional (sliceTail expr) (m::more) = some (some hi,c::rest) :=
    optional_of_some (by simp [sliceTail,expect_cons hm,hh])
  simp [subscript,hl,htail,expect_cons hc]

lemma rowRef_bare {r o : Lexeme} (hr : r.text = Text.ofString "row")
    (ho : o.text = Text.ofString "[") (ls : List Lexeme) :
    rowRef expr (r::o::ls) = subscript expr none ls := by
  have hdot : expect "." (o::ls) = none := by
    refine expect_eq_none fun x hx => ?_
    simp only [List.head?_cons,Option.mem_def,Option.some.injEq] at hx
    rw [← hx,ho]
    decide
  have hview : optional viewName (o::ls) = some (none,o::ls) :=
    optional_of_none (by simp [viewName,hdot])
  simp only [rowRef,Option.bind_eq_bind,expect_cons hr,Option.bind_some,hview,expect_cons ho]
  rfl

lemma rowRef_view {r d v o : Lexeme} (hr : r.text = Text.ofString "row")
    (hd : d.text = Text.ofString ".") (hv : v.kind = .name) (ho : o.text = Text.ofString "[")
    (ls : List Lexeme) : rowRef expr (r::d::v::o::ls) = subscript expr (some v.text) ls := by
  have hview : optional viewName (d::v::o::ls) = some (some v.text,o::ls) :=
    optional_of_some (by simp [viewName,expect_cons hd,hv])
  simp only [rowRef,Option.bind_eq_bind,expect_cons hr,Option.bind_some,hview,expect_cons ho]
  rfl

end Row

end CellScript.Script.Parser
