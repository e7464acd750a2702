import Mathlib
import CellScript.Script.Eval

/-! Scripts that give cells by their positions only. What they do depends on the cells of a row and
not on the names of its columns. -/
namespace CellScript

namespace Script

/-- An integer as it is written, perhaps with signs in front of it. -/
def Expr.isInteger : Expr → Bool
  | .int _ => true
  | .signed _ operand => operand.isInteger
  | _ => false

mutual

/-- Every cell is given by an integer, and every slice by integers or open ends. -/
def Expr.positional : Expr → Bool
  | .or a b | .and a b | .compare _ a b | .arith _ a b => a.positional && b.positional
  | .not a | .signed _ a | .paren a => a.positional
  | .float _ | .int _ | .string _ | .bool _ | .nil | .var _ _ => true
  | .cell _ key => key.any Expr.isInteger
  | .slice _ lo hi => lo.all Expr.isInteger && hi.all Expr.isInteger
  | .call _ args => positionalAll args

def positionalAll : List Expr → Bool
  | [] => true
  | e::es => e.positional && positionalAll es

end

def Statement.positional : Statement → Bool
  | .eval e => e.positional
  | .bind _ _ value => value.positional
  | .store _ key value => key.any Expr.isInteger && value.positional

def Program.positional (p : Program) : Bool := p.statements.all Statement.positional

def Formula.positional (f : Formula) : Bool := f.expr.positional

/-- An integer has its value whatever the row. -/
lemma eval_isInteger {e : Expr} (h : e.isInteger = true) : ∃ n, ∀ s, eval s e = .ok (.int n) := by
  induction e using Expr.isInteger.induct with
  | case1 n => exact ⟨n,fun s => by rw [eval]; rfl⟩
  | case2 op operand ih =>
    obtain ⟨n,hn⟩ := ih h
    cases op with
    | minus => exact ⟨-n,fun s => by rw [eval,hn]; rfl⟩
    | plus => exact ⟨n,fun s => by rw [eval,hn]; rfl⟩
  | case3 e hint hsigned =>
    rw [Expr.isInteger] at h
    · exact absurd h (by decide)
    · exact hint
    · exact hsigned

lemma evalKey_isInteger {key : Option Expr} (h : key.any Expr.isInteger = true) :
    ∃ i, ∀ s, evalKey s key = .ok (.index i) := by
  cases key with
  | none => simp at h
  | some e =>
    obtain ⟨n,hn⟩ := eval_isInteger h
    exact ⟨n.toInt,fun s => by rw [evalKey,hn]; rfl⟩

lemma evalBound_isInteger {bound : Option Expr} (h : bound.all Expr.isInteger = true) :
    ∃ i, ∀ s, evalBound s bound = .ok i := by
  cases bound with
  | none => exact ⟨none,fun s => by rw [evalBound]; rfl⟩
  | some e =>
    obtain ⟨n,hn⟩ := eval_isInteger h
    exact ⟨some n.toInt,fun s => by rw [evalBound,hn]; rfl⟩

variable {l l' : Layout} {row : Row} {vars : List (Text × Value)}

mutual

/-- The value of an expression that gives cells by position is the same whatever the columns are
called. -/
theorem eval_positional : ∀ e : Expr, e.positional = true →
    eval ⟨l',row,vars⟩ e = eval ⟨l,row,vars⟩ e
  | .or a b,h | .and a b,h | .compare _ a b,h | .arith _ a b,h => by
    simp only [Expr.positional,Bool.and_eq_true] at h
    rw [eval,eval,eval_positional a h.1,eval_positional b h.2]
  | .not a,h | .signed _ a,h | .paren a,h => by
    simp only [Expr.positional] at h
    rw [eval,eval,eval_positional a h]
  | .float _,_ | .int _,_ | .string _,_ | .bool _,_ | .nil,_ => by rw [eval,eval]
  | .var _ _,_ => by
    rw [eval,eval]
    rfl
  | .cell view key,h => by
    simp only [Expr.positional] at h
    obtain ⟨i,hi⟩ := evalKey_isInteger h
    rw [eval,eval,hi,hi]
    rfl
  | .slice view lo hi,h => by
    simp only [Expr.positional,Bool.and_eq_true] at h
    obtain ⟨i,hi⟩ := evalBound_isInteger h.1
    obtain ⟨j,hj⟩ := evalBound_isInteger h.2
    rw [eval,eval,hi,hi,hj,hj]
  | .call f args,h => by
    simp only [Expr.positional] at h
    rw [eval,eval,evalAll_positional args h]

lemma evalAll_positional : ∀ es : List Expr, positionalAll es = true →
    evalAll ⟨l',row,vars⟩ es = evalAll ⟨l,row,vars⟩ es
  | [],_ => by rw [evalAll,evalAll]
  | e::es,h => by
    simp only [positionalAll,Bool.and_eq_true] at h
    rw [evalAll,evalAll,eval_positional e h.1,evalAll_positional es h.2]

end

def Scope.under (l : Layout) (s : Scope) : Scope := { s with layout := l }

/-- A statement does the same under other columns. -/
lemma exec_positional {st : Statement} (h : st.positional = true) (s : Scope) :
    exec (s.under l) st = (exec s st).map (Scope.under l) := by
  obtain ⟨m,row,vars⟩ := s
  cases st with
  | eval e =>
    rw [exec,exec,Scope.under,eval_positional (l := m) e h]
    cases eval ⟨m,row,vars⟩ e <;> rfl
  | bind pos name value =>
    rw [exec,exec,Scope.under,eval_positional (l := m) value h]
    cases eval ⟨m,row,vars⟩ value <;> rfl
  | store view key value =>
    simp only [Statement.positional,Bool.and_eq_true] at h
    obtain ⟨i,hi⟩ := evalKey_isInteger h.1
    rw [exec,exec,Scope.under,eval_positional (l := m) value h.2,hi,hi]
    cases eval ⟨m,row,vars⟩ value with
    | error e => rfl
    | ok v =>
      cases viewOf view with
      | error e => rfl
      | ok _ =>
        change (do return (⟨l,← ofRow (row.set m (.index i) v),vars⟩ : Scope)) =
          Except.map (Scope.under l) (do return ⟨m,← ofRow (row.set m (.index i) v),vars⟩)
        cases row.set m (.index i) v <;> rfl

/-- Statements do the same under other columns, as far as they get. -/
lemma execAll_positional {sts : List Statement}
    (h : sts.all Statement.positional = true) (s : Scope) :
    execAll (s.under l) sts = ((execAll s sts).1.under l,(execAll s sts).2) := by
  induction sts generalizing s with
  | nil => rfl
  | cons st rest ih =>
    simp only [List.all_cons,Bool.and_eq_true] at h
    rw [execAll,execAll,exec_positional h.1]
    cases exec s st with
    | error e => rfl
    | ok t => exact ih h.2 t

lemma Program.run_positional {p : Program} (h : p.positional = true) (l l' : Layout) (row : Row) :
    p.run l' row = p.run l row := by
  rw [Program.run,Program.run]
  have hsame := execAll_positional (l := l') h ⟨l,row,[]⟩
  rw [Scope.under] at hsame
  rw [hsame]
  rfl

lemma Formula.value_positional {f : Formula} (h : f.positional = true) (l l' : Layout)
    (row : Row) : f.value l' row = f.value l row := eval_positional f.expr h

lemma Formula.holds_positional {f : Formula} (h : f.positional = true) (l l' : Layout)
    (row : Row) : f.holds l' row = f.holds l row := by
  rw [Formula.holds,Formula.holds,value_positional h l l']

end Script
end CellScript
