import Mathlib
import CellScript.Proofs.Script.Aligned
import CellScript.Proofs.Script.RoundTrip

/-! Parsing of assignments: a cell as the target, and as its new value an expression, or the old value
combined with an expression in parentheses. -/
namespace CellScript.Script

open CellScript.Script.Parser

/-- Lexemes that are read as a key in front of a closing bracket. -/
def KeyReads (key : Expr) (ks : List Lexeme) : Prop :=
  ∀ d c rest, c.text = Text.ofString "]" →
    optional (expr (d+1)) (ks ++ c::rest) = some (some key,c::rest)

lemma clear_joints_bracket {c : Lexeme} (hc : c.text = Text.ofString "]") (rest : List Lexeme) :
    Clear joints (c::rest) := by
  refine clear_cons ?_ rest
  rw [hc]
  decide

lemma keyReads_literal {l : Lexeme} {e : Expr} (h : literal? l = some e) (hl : l.text ∉ leaders) :
    KeyReads e [l] := by
  intro d c rest hc
  exact optional_of_some (disjunction_of_literal h hl (clear_joints_bracket hc rest))

lemma keyReads_minus {m l : Lexeme} {e : Expr} (hm : m.text = Text.ofString "-")
    (h : literal? l = some e) (hl : l.text ∉ leaders) : KeyReads (.signed .minus e) [m,l] := by
  intro d c rest hc
  have hconstant : constant (l::c::rest) = some (e,c::rest) := by simp [constant,h]
  have hprimary : primary (expr d) (l::c::rest) = some (e,c::rest) := by
    simp [primary,hconstant]
  have hsigned : signed (expr d) (l::c::rest) = some (e,c::rest) :=
    signed_of_primary hprimary fun hs => hl (List.mem_append_right _ hs)
  have hsign : choose? signs m = some .minus := choose?_of_mem (by rw [hm]; decide) (by decide)
  have hminus : signed (expr d) (m::l::c::rest) = some (.signed .minus e,c::rest) := by
    rw [signed,hsign]
    simp [hsigned]
  refine optional_of_some (disjunction_of_signed hminus ?_ (clear_joints_bracket hc rest))
  rw [hm]
  decide

lemma primary_cell {view : Option Text} {key : Expr} {r o c : Lexeme} {v ks : List Lexeme}
    (hview : ∀ w ∈ view, IsName w) (hf : r.shape.Fits) (hr : r.text = Text.ofString "row")
    (hv : Carries v (viewWords view)) (ho : o.text = Text.ofString "[") (hk : KeyReads key ks)
    (hc : c.text = Text.ofString "]") (d : ℕ) (rest : List Lexeme) :
    primary (expr (d+1)) (r::(v ++ o::(ks ++ c::rest))) = some (.cell view (some key),rest) :=
  primary_row hview hf hr hv ho (subscript_cell view (hk d c rest hc) hc)

/-- One operator between two operands, with nothing around them. -/
lemma disjunction_of_operator {d : ℕ} {op : Arith} {a b : Expr} {x w y : Lexeme}
    {u mid rest : List Lexeme} (hop : (w.text,op) ∈ sums ∨ (w.text,op) ∈ products)
    (ha : primary (expr d) (x::u) = some (a,w::y::mid)) (hx : x.text ∉ leaders)
    (hb : primary (expr d) (y::mid) = some (b,rest)) (hy : y.text ∉ leaders)
    (hr : Clear joints rest) : disjunction (expr d) (x::u) = some (.arith op a b,rest) := by
  have hneg : x.text ∉ negations.map (·.1) := fun hm => hx (List.mem_append_left _ hm)
  have hsa := signed_of_primary ha fun hm => hx (List.mem_append_right _ hm)
  have hsb := signed_of_primary hb fun hm => hy (List.mem_append_right _ hm)
  refine disjunction_of_sum ?_ hneg hr
  rcases hop with hop | hop
  · have hclear : Clear (products.map (·.1)) (w::y::mid) := by
      refine clear_cons ?_ _
      have hapart : ∀ p ∈ sums, p.1 ∉ products.map (·.1) := by decide
      exact hapart _ hop
    have hpa := product_of_signed hsa hclear
    have hpb := product_of_signed hsb (hr.mono (by decide))
    have hshrink : Shrinks (product (expr d)) := (Sound.product (Sound.expr d)).shrinks
    exact ((Reached.start hpa).step hshrink (choose?_of_mem hop (by decide)) hpb).stop
      (hr.mono (by decide))
  · have hshrink : Shrinks (signed (expr d)) := (Sound.signed (Sound.expr d)).shrinks
    refine sum_of_product ?_ (hr.mono (by decide))
    exact ((Reached.start hsa).step hshrink (choose?_of_mem hop (by decide)) hsb).stop
      (hr.mono (by decide))

lemma clause_of_expressions {l q : Lexeme} {ls mid rest : List Lexeme} {target value : Expr}
    (ht : expression (l::ls) = some (target,q::mid)) (hq : q.text = Text.ofString "=")
    (hv : expression mid = some (value,rest)) :
    clause (l::ls) = some (⟨l.pos,target,some value⟩,rest) := by
  have hassign : optional (fun ls => (expect (Text.ofString "=") ls).bind fun x => expression x.2)
      (q::mid) = some (some value,rest) :=
    optional_of_some (by simp [expect_cons hq,hv])
  simp only [clause,ht,Option.bind_eq_bind,Option.bind_some,hassign]
  rfl

/-- What may follow a statement: nothing, or a semicolon. -/
def Separates (tail : List Lexeme) : Prop :=
  ∀ t ∈ tail.head?, t.text = Text.ofString ";" ∧ t.kind = .punctuation

lemma Separates.stops {tail : List Lexeme} (h : Separates tail) : Stops tail := by
  intro t ht
  obtain ⟨h1,h2⟩ := h t ht
  rw [h1,h2]
  exact ⟨by decide,by decide⟩

lemma Separates.clear {tail : List Lexeme} (h : Separates tail) : Clear joints tail := by
  intro t ht
  rw [(h t ht).1]
  decide

/-- Lexemes that are read as one statement of a kind, whatever statements follow. -/
def Reads1 (b : List Lexeme) (P : Clause → Prop) : Prop :=
  ∀ tail, Separates tail → ∃ c, P c ∧ clause (b ++ tail) = some (c,tail)

/-- Further statements, each behind its semicolon. -/
def further (rest : List (Lexeme × List Lexeme)) : List Lexeme := rest.flatMap fun p => p.1::p.2

lemma separates_further {rest : List (Lexeme × List Lexeme)}
    (h : ∀ p ∈ rest, p.1.text = Text.ofString ";" ∧ p.1.kind = .punctuation) :
    Separates (further rest) := by
  cases rest with
  | nil => simp [further,Separates]
  | cons p rest =>
    intro t ht
    simp only [further,List.flatMap_cons,List.cons_append,List.head?_cons,Option.mem_def,
      Option.some.injEq] at ht
    rw [← ht]
    exact h p (by simp)

def moreClauses (done : List Clause) : Parser (List Clause) := fun ls => do
  let (_,ls) ← expect ";" ls
  let (next,ls) ← optional clause ls
  return (done ++ next.toList,ls)

lemma extend_moreClauses {rest : List (Lexeme × List Lexeme)} {Ps : List (Clause → Prop)}
    (hsep : ∀ p ∈ rest, p.1.text = Text.ofString ";" ∧ p.1.kind = .punctuation)
    (h : List.Forall₂ (fun p P => Reads1 p.2 P) rest Ps) (done : List Clause) {fuel : ℕ}
    (hf : (further rest).length ≤ fuel) :
    ∃ cs, List.Forall₂ (fun P c => P c) Ps cs ∧
      extend moreClauses fuel done (further rest) = some (done ++ cs,[]) := by
  induction h generalizing done fuel with
  | nil => exact ⟨[],.nil,by rw [List.append_nil]; exact extend_of_none rfl fuel⟩
  | @cons p P rest Ps hp _ ih =>
    have hrest : ∀ q ∈ rest, q.1.text = Text.ofString ";" ∧ q.1.kind = .punctuation :=
      fun q hq => hsep q (by simp [hq])
    have hcons : further (p::rest) = p.1::(p.2 ++ further rest) := rfl
    obtain ⟨c,hPc,hc⟩ := hp (further rest) (separates_further hrest)
    have hstep : moreClauses done (p.1::(p.2 ++ further rest)) =
        some (done ++ [c],further rest) := by
      simp [moreClauses,expect_cons (hsep p (by simp)).1,optional_of_some hc]
    rw [hcons] at hf ⊢
    simp only [List.length_cons,List.length_append] at hf
    obtain ⟨fuel,rfl⟩ : ∃ n, fuel = n+1 := ⟨fuel-1,by omega⟩
    obtain ⟨cs,hcs,hx⟩ := ih hrest (done ++ [c]) (show (further rest).length ≤ fuel by omega)
    refine ⟨c::cs,.cons hPc hcs,?_⟩
    rw [extend_of_some hstep,hx]
    simp

/-- Statements with semicolons between them are read one by one. -/
theorem clauses_of_reads {b : List Lexeme} {P : Clause → Prop} {rest : List (Lexeme × List Lexeme)}
    {Ps : List (Clause → Prop)} (hb : Reads1 b P)
    (hsep : ∀ p ∈ rest, p.1.text = Text.ofString ";" ∧ p.1.kind = .punctuation)
    (h : List.Forall₂ (fun p P => Reads1 p.2 P) rest Ps) :
    ∃ cs, List.Forall₂ (fun P c => P c) (P::Ps) cs ∧ clauses (b ++ further rest) = some (cs,[]) := by
  obtain ⟨c,hPc,hc⟩ := hb (further rest) (separates_further hsep)
  obtain ⟨cs,hcs,hmore⟩ := extend_moreClauses hsep h [c] (le_refl (further rest).length)
  refine ⟨c::cs,.cons hPc hcs,?_⟩
  simp only [clauses,optional_of_some hc,Option.bind_eq_bind,Option.bind_some,Option.toList_some]
  exact hmore

end CellScript.Script
