import Mathlib
import CellScript.Proofs.Row.Write
import CellScript.Script.Eval

/-! What statements do. A statement that succeeds binds one variable or stores one cell. One that fails
leaves everything as the statements before it have left it, although cells are stored in place while a
script runs. -/
namespace CellScript.Script

lemma ofRow_eq_ok_iff {α : Type} {x : Except Row.Error α} {a : α} :
    ofRow x = .ok a ↔ x = .ok a := by
  cases x <;> simp [ofRow]

/-- A call whose arguments have values. -/
lemma eval_call {s : Scope} {name : Text} {f : Function} {es : List Expr} {args : List Value}
    (hname : Function.ofName? name = some f) (hes : evalAll s es = .ok args) :
    eval s (.call name es) = applyFunction name f args := by
  simp only [eval,hname,hes]
  rfl

lemma evalAll_singleton {s : Scope} {e : Expr} {v : Value} (he : eval s e = .ok v) :
    evalAll s [e] = .ok [v] := by
  simp only [evalAll,he]
  rfl

/-- What a statement that succeeds makes of a scope. -/
inductive Executes (s : Scope) : Statement → Scope → Prop
  | eval {e : Expr} {v : Value} : eval s e = .ok v → Executes s (.eval e) s
  | bind {pos : Text.Position} {name : Text} {value : Expr} {v : Value} : eval s value = .ok v →
      Executes s (.bind pos name value) { s with vars := (name,v.bindAt pos)::s.vars }
  | store {view : Option Text} {key : Option Expr} {value : Expr} {v : Value} {w : View} {k : Key}
      {row : Row} : eval s value = .ok v → viewOf view = .ok w → evalKey s key = .ok k →
      s.row.set s.layout k v = .ok row → Executes s (.store view key value) { s with row := row }

theorem exec_eq_ok_iff {s s' : Scope} {st : Statement} :
    exec s st = .ok s' ↔ Executes s st s' := by
  constructor
  · intro h
    cases st with
    | eval e =>
      rw [exec,bind_eq_ok_iff] at h
      obtain ⟨v,hv,h⟩ := h
      obtain rfl := Except.ok.inj h
      exact .eval hv
    | bind pos name value =>
      rw [exec,bind_eq_ok_iff] at h
      obtain ⟨v,hv,h⟩ := h
      obtain rfl := Except.ok.inj h
      exact .bind hv
    | store view key value =>
      simp only [exec,bind_eq_ok_iff,ofRow_eq_ok_iff] at h
      obtain ⟨v,hv,w,hw,k,hk,row,hrow,h⟩ := h
      obtain rfl := Except.ok.inj h
      exact .store hv hw hk hrow
  · intro h
    cases h with
    | eval hv =>
      rw [exec,hv]
      rfl
    | bind hv =>
      rw [exec,hv]
      rfl
    | store hv hw hk hrow =>
      rw [exec,hv,hw,hk]
      simp only [bind,Except.bind,hrow,ofRow]
      rfl

lemma Executes.layout {s s' : Scope} {st : Statement} (h : Executes s st s') :
    s'.layout = s.layout := by
  cases h <;> rfl

lemma execAll_cons_eq_ok {s s' : Scope} {st : Statement} {rest : List Statement}
    (h : execAll s (st::rest) = (s',.ok ())) :
    ∃ s₁, exec s st = .ok s₁ ∧ execAll s₁ rest = (s',.ok ()) := by
  rw [execAll] at h
  cases hst : exec s st with
  | error e =>
    rw [hst] at h
    simp at h
  | ok s₁ =>
    rw [hst] at h
    exact ⟨s₁,rfl,h⟩

/-- What every statement keeps is kept by a run, also when it ends with a failure. -/
theorem execAll_keeps {P : Scope → Prop} {sts : List Statement}
    (hstep : ∀ st ∈ sts, ∀ s s', P s → Executes s st s' → P s') {s : Scope} (hs : P s) :
    P (execAll s sts).1 := by
  induction sts generalizing s with
  | nil => exact hs
  | cons st rest ih =>
    obtain ⟨hfirst,hrest⟩ := List.forall_mem_cons.mp hstep
    rw [execAll]
    cases hst : exec s st with
    | error e => exact hs
    | ok s' => exact ih hrest (hfirst s s' hs (exec_eq_ok_iff.mp hst))

lemma layout_execAll (s : Scope) (sts : List Statement) : (execAll s sts).1.layout = s.layout :=
  execAll_keeps (P := fun t => t.layout = s.layout) (fun _ _ _ _ ht h => h.layout.trans ht) rfl

/-- Statements that do alike one by one do alike in sequence, as far as they get. -/
theorem execAll_matched {E : Error → Error → Prop} {R : Scope → Scope → Prop}
    {Q : Statement → Statement → Prop}
    (hstep : ∀ s s' st st', R s s' → Q st st' → Matched E R (exec s st) (exec s' st'))
    {sts sts' : List Statement} (h : List.Forall₂ Q sts sts') {s s' : Scope} (hs : R s s') :
    R (execAll s sts).1 (execAll s' sts').1 ∧ Matched E Eq (execAll s sts).2 (execAll s' sts').2 := by
  induction h generalizing s s' with
  | nil => exact ⟨hs,.ok rfl⟩
  | @cons st st' sts sts' hst _ ih =>
    have hx := hstep s s' st st' hs hst
    rw [execAll,execAll]
    generalize exec s st = x at hx
    generalize exec s' st' = y at hx
    cases hx with
    | ok h => exact ih h
    | error h => exact ⟨hs,.error h⟩

/-- The statements behind others go on from the scope that these reach, unless one of them fails. -/
lemma execAll_append (s : Scope) (xs ys : List Statement) :
    execAll s (xs ++ ys) = match execAll s xs with
      | (s',.ok ()) => execAll s' ys
      | (s',.error e) => (s',.error e) := by
  induction xs generalizing s with
  | nil => rfl
  | cons st rest ih =>
    rw [List.cons_append,execAll,execAll]
    cases exec s st with
    | error e => rfl
    | ok s' => exact ih s'

/-- Run one statement step by step, and store its cell in place. The scope is the one reached, also
when a step fails. -/
def execInPlace (s : Scope) : Statement → Scope × Except Error Unit
  | .eval e => (s,(eval s e).map fun _ => ())
  | .bind pos name value =>
    match eval s value with
    | .error e => (s,.error e)
    | .ok v => ({ s with vars := (name,v.bindAt pos)::s.vars },.ok ())
  | .store view key value =>
    match do return (← eval s value,← viewOf view,← evalKey s key) with
    | .error e => (s,.error e)
    | .ok (v,_,k) =>
      let (row,result) := s.row.writeInPlace s.layout k v
      ({ s with row },ofRow result)

def runInPlace (s : Scope) : List Statement → Scope × Except Error Unit
  | [] => (s,.ok ())
  | st::rest =>
    match execInPlace s st with
    | (s,.ok ()) => runInPlace s rest
    | (s,.error error) => (s,.error error)

/-- In place, a statement that fails has not changed anything. -/
lemma execInPlace_eq (s : Scope) (st : Statement) :
    execInPlace s st = match exec s st with
      | .ok s' => (s',.ok ())
      | .error e => (s,.error e) := by
  cases st with
  | eval e =>
    rw [execInPlace,exec]
    cases eval s e <;> rfl
  | bind pos name value =>
    rw [execInPlace,exec]
    cases eval s value <;> rfl
  | store view key value =>
    rw [execInPlace,exec]
    cases eval s value with
    | error e => rfl
    | ok v =>
      cases viewOf view with
      | error e => rfl
      | ok w =>
        cases evalKey s key with
        | error e => rfl
        | ok k =>
          simp only [bind,Except.bind,pure,Except.pure,Row.writeInPlace_eq]
          cases s.row.set s.layout k v <;> rfl

theorem runInPlace_eq (s : Scope) (sts : List Statement) : runInPlace s sts = execAll s sts := by
  induction sts generalizing s with
  | nil => rfl
  | cons st rest ih =>
    rw [runInPlace,execAll,execInPlace_eq]
    cases exec s st with
    | error e => rfl
    | ok s' => exact ih s'

/-- The statement with this number fails, after the ones before it have succeeded. -/
def FailsAt (s : Scope) (sts : List Statement) (j : ℕ) (e : Error) : Prop :=
  ∃ st s', sts[j]? = some st ∧ runInPlace s (sts.take j) = (s',.ok ()) ∧
    (execInPlace s' st).2 = .error e

lemma execInPlace_eq_error_iff {s : Scope} {st : Statement} {e : Error} :
    (execInPlace s st).2 = .error e ↔ exec s st = .error e := by
  rw [execInPlace_eq]
  cases exec s st <;> simp

/-- The run ends at the statement that fails, in the scope that the ones before it have reached. -/
lemma FailsAt.execAll {s : Scope} {sts : List Statement} {j : ℕ} {e : Error}
    (h : FailsAt s sts j e) : ∃ s', execAll s (sts.take j) = (s',.ok ()) ∧
      execAll s sts = (s',.error e) := by
  obtain ⟨st,s',hst,hbefore,hfail⟩ := h
  rw [runInPlace_eq] at hbefore
  rw [execInPlace_eq_error_iff] at hfail
  obtain ⟨hlt,hget⟩ := List.getElem?_eq_some_iff.mp hst
  have hsplit : sts = sts.take j ++ st::sts.drop (j+1) := by
    rw [← hget,← List.drop_eq_getElem_cons hlt,List.take_append_drop]
  refine ⟨s',hbefore,?_⟩
  rw [hsplit,execAll_append,hbefore]
  simp only [Script.execAll,hfail]

/-- A run that fails does so at one of its statements. -/
lemma exists_failsAt {s : Scope} {sts : List Statement} {e : Error}
    (h : (execAll s sts).2 = .error e) : ∃ j, FailsAt s sts j e := by
  induction sts generalizing s with
  | nil => simp [execAll] at h
  | cons st rest ih =>
    rw [execAll] at h
    cases hst : exec s st with
    | error e' =>
      rw [hst] at h
      obtain rfl := Except.error.inj h
      exact ⟨0,st,s,rfl,rfl,execInPlace_eq_error_iff.mpr hst⟩
    | ok s₁ =>
      rw [hst] at h
      obtain ⟨j,x,s',hx,hbefore,hfail⟩ := ih h
      refine ⟨j+1,x,s',hx,?_,hfail⟩
      rw [List.take_succ_cons,runInPlace,execInPlace_eq,hst]
      exact hbefore

def Program.before (p : Program) (j : ℕ) : Program := { p with statements := p.statements.take j }

/-- A program runs in place as it is said to, and it keeps the columns. When it fails, it does so at
one of its statements, and the failing statement has no effect: the row, and all else that a script
sees, is as the statements before it leave it when they are run alone, which succeeds. -/
theorem failing_statement (p : Program) (l : Layout) (row : Row) :
    let start : Scope := { layout := l, row }
    let final := runInPlace start p.statements
    p.run l row = (final.1.row,final.2) ∧ final.1.layout = l ∧
    (∀ e, (p.run l row).2 = .error e ↔ ∃ j, FailsAt start p.statements j e) ∧
    ∀ j e, FailsAt start p.statements j e → final = (final.1,.error e) ∧
      (p.before j).run l row = (final.1.row,.ok ()) ∧
      runInPlace start (p.before j).statements = (final.1,.ok ()) := by
  intro start final
  have hfinal : final = execAll start p.statements := runInPlace_eq start p.statements
  have hrun : p.run l row = (final.1.row,final.2) := by
    rw [hfinal]
    rfl
  refine ⟨hrun,?_,?_,?_⟩
  · rw [hfinal]
    exact layout_execAll start p.statements
  · intro e
    rw [hrun,hfinal]
    refine ⟨exists_failsAt,?_⟩
    rintro ⟨j,h⟩
    obtain ⟨s',-,hall⟩ := h.execAll
    rw [hall]
  · intro j e h
    obtain ⟨s',hbefore,hall⟩ := h.execAll
    rw [hfinal,hall,runInPlace_eq]
    refine ⟨rfl,?_,hbefore⟩
    rw [Program.run,Program.before,hbefore]

end CellScript.Script
