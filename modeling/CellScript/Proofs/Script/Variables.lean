import Mathlib
import CellScript.Proofs.Script.Alike
import CellScript.Proofs.Script.Statement
import CellScript.Proofs.Value.Alike

/-! The variables of scripts. What an expression means depends on the variables only by the values of
those that it reads, so statements go on behind others as on their own unless they read a variable that
these have assigned. -/
namespace CellScript.Script

mutual

def Expr.names : Expr → List Text
  | .or a b | .and a b | .compare _ a b | .arith _ a b => a.names ++ b.names
  | .not a | .signed _ a | .paren a => a.names
  | .float _ | .int _ | .string _ | .bool _ | .nil => []
  | .cell _ key => optionNames key
  | .slice _ lo hi => optionNames lo ++ optionNames hi
  | .call _ args => listNames args
  | .var n _ => [n]

def optionNames : Option Expr → List Text
  | none => []
  | some e => e.names

def listNames : List Expr → List Text
  | [] => []
  | e::es => e.names ++ listNames es

end

/-- The variables that a statement reads. The target of an assignment is read for its key only. -/
def Statement.reads : Statement → List Text
  | .eval e => e.names
  | .bind _ _ value => value.names
  | .store _ key value => optionNames key ++ value.names

def Statement.assigns : Statement → List Text
  | .bind _ name _ => [name]
  | .eval _ | .store _ _ _ => []

def Program.reads (p : Program) : List Text := p.statements.flatMap Statement.reads

def Program.assigns (p : Program) : List Text := p.statements.flatMap Statement.assigns

/-- The same columns and the same row, and the same values of some variables. -/
structure Scope.SameOn (names : List Text) (s s' : Scope) : Prop where
  layout : s'.layout = s.layout
  row : s'.row = s.row
  vars : ∀ n ∈ names, s'.lookup? n = s.lookup? n

section

variable {names : List Text} {s s' : Scope}

lemma Scope.SameOn.mono {ns : List Text} (h : s.SameOn names s') (hn : ns ⊆ names) :
    s.SameOn ns s' :=
  ⟨h.layout,h.row,fun n hm => h.vars n (hn hm)⟩

lemma Scope.sameOn_append {ns : List Text} :
    s.SameOn (names ++ ns) s' ↔ s.SameOn names s' ∧ s.SameOn ns s' := by
  refine ⟨fun h => ⟨h.mono (List.subset_append_left _ _),h.mono (List.subset_append_right _ _)⟩,?_⟩
  rintro ⟨h,h'⟩
  refine ⟨h.layout,h.row,fun n hn => ?_⟩
  rcases List.mem_append.mp hn with hn | hn
  · exact h.vars n hn
  · exact h'.vars n hn

mutual

/-- An expression means the same wherever its variables have the same values. -/
theorem eval_congr : ∀ e : Expr, s.SameOn e.names s' → eval s' e = eval s e
  | .or a b,h | .and a b,h | .compare _ a b,h | .arith _ a b,h => by
    rw [Expr.names,Scope.sameOn_append] at h
    rw [eval,eval,eval_congr a h.1,eval_congr b h.2]
  | .not a,h | .signed _ a,h | .paren a,h => by
    rw [Expr.names] at h
    rw [eval,eval,eval_congr a h]
  | .float _,_ | .int _,_ | .string _,_ | .bool _,_ | .nil,_ => by rw [eval,eval]
  | .cell _ key,h => by
    rw [Expr.names] at h
    rw [eval,eval,evalKey_congr key h,h.layout,h.row]
  | .slice _ lo hi,h => by
    rw [Expr.names,Scope.sameOn_append] at h
    rw [eval,eval,evalBound_congr lo h.1,evalBound_congr hi h.2,h.1.row]
  | .call _ args,h => by
    rw [Expr.names] at h
    rw [eval,eval,evalAll_congr args h]
  | .var n _,h => by
    rw [eval,eval,h.vars n (by rw [Expr.names]; exact List.mem_singleton_self n)]

lemma evalKey_congr : ∀ key : Option Expr, s.SameOn (optionNames key) s' →
    evalKey s' key = evalKey s key
  | none,_ => by rw [evalKey,evalKey]
  | some e,h => by
    rw [optionNames] at h
    rw [evalKey,evalKey,eval_congr e h]

lemma evalBound_congr : ∀ bound : Option Expr, s.SameOn (optionNames bound) s' →
    evalBound s' bound = evalBound s bound
  | none,_ => by rw [evalBound,evalBound]
  | some e,h => by
    rw [optionNames] at h
    rw [evalBound,evalBound,eval_congr e h]

lemma evalAll_congr : ∀ es : List Expr, s.SameOn (listNames es) s' → evalAll s' es = evalAll s es
  | [],_ => by rw [evalAll,evalAll]
  | e::es,h => by
    rw [listNames,Scope.sameOn_append] at h
    rw [evalAll,evalAll,eval_congr e h.1,evalAll_congr es h.2]

end

lemma Scope.lookup?_cons (s : Scope) (name n : Text) (v : Value) :
    ({ s with vars := (name,v)::s.vars } : Scope).lookup? n =
      if name = n then some v else s.lookup? n := by
  simp only [Scope.lookup?,List.find?_cons]
  by_cases h : name = n
  · rw [if_pos h,beq_iff_eq.mpr h]
    rfl
  · rw [if_neg h,beq_eq_false_iff_ne.mpr h]

/-- A statement does the same to scopes that agree on what it reads, and they still agree. -/
lemma exec_congr {st : Statement} (h : s.SameOn names s') (hr : st.reads ⊆ names) :
    Matched Eq (Scope.SameOn names) (exec s st) (exec s' st) := by
  cases st with
  | eval e =>
    rw [exec,exec,eval_congr e (h.mono hr)]
    exact matched_bind (fun _ => rfl) _ fun _ => .ok h
  | bind pos name value =>
    rw [exec,exec,eval_congr value (h.mono hr)]
    refine matched_bind (fun _ => rfl) _ fun v => .ok ⟨h.layout,h.row,fun n hn => ?_⟩
    rw [Scope.lookup?_cons,Scope.lookup?_cons,h.vars n hn]
  | store view key value =>
    rw [Statement.reads,List.append_subset] at hr
    rw [exec,exec,eval_congr value (h.mono hr.2),evalKey_congr key (h.mono hr.1),h.layout,h.row]
    refine matched_bind (fun _ => rfl) _ fun v => matched_bind (fun _ => rfl) _ fun w =>
      matched_bind (fun _ => rfl) _ fun k => ?_
    exact matched_bind (fun _ => rfl) _ fun row => .ok ⟨rfl,rfl,h.vars⟩

/-- Statements do the same to scopes that agree on what they read, as far as they get. -/
theorem execAll_congr {sts : List Statement} (h : s.SameOn names s')
    (hr : sts.flatMap Statement.reads ⊆ names) :
    (execAll s sts).1.SameOn names (execAll s' sts).1 ∧
      Matched Eq Eq (execAll s sts).2 (execAll s' sts).2 := by
  have hreads : List.Forall₂ (fun st st' => st' = st ∧ st.reads ⊆ names) sts sts :=
    List.forall₂_same.mpr fun st hst =>
      ⟨rfl,fun n hn => hr (List.mem_flatMap.mpr ⟨st,hst,hn⟩)⟩
  refine execAll_matched (fun s s' st st' h hst => ?_) hreads h
  obtain ⟨rfl,hst⟩ := hst
  exact exec_congr h hst

end

/-- A run leaves the variables alone that its statements do not assign. -/
lemma lookup?_execAll {s : Scope} {sts : List Statement} {n : Text}
    (hn : n ∉ sts.flatMap Statement.assigns) :
    (execAll s sts).1.lookup? n = s.lookup? n := by
  refine execAll_keeps (P := fun t => t.lookup? n = s.lookup? n) ?_ rfl
  intro st hst t t' ht hex
  cases hex with
  | eval _ => exact ht
  | store _ _ _ _ => exact ht
  | @bind pos name value v _ =>
    rw [Scope.lookup?_cons,if_neg,ht]
    rintro rfl
    exact hn (List.mem_flatMap.mpr ⟨_,hst,List.mem_singleton_self _⟩)

/-- Run a program, and if it succeeds another one on the row that it leaves. -/
def Program.runThen (p q : Program) (l : Layout) (row : Row) : Row × Except Error Unit :=
  match p.run l row with
  | (row,.ok ()) => q.run l row
  | (row,.error error) => (row,.error error)

/-- The statements of one program behind those of another one do what they do on their own, if they read
no variable that these assign. -/
theorem run_append {p q : Program} (h : ∀ n ∈ p.assigns, n ∉ q.reads) (src : Text) (l : Layout)
    (row : Row) : ({ source := src, statements := p.statements ++ q.statements } : Program).run l row =
      p.runThen q l row := by
  rw [Program.runThen,Program.run,Program.run,execAll_append]
  cases hp : execAll { layout := l, row } p.statements with
  | mk s result =>
    have hlayout := layout_execAll { layout := l, row } p.statements
    rw [hp] at hlayout
    cases result with
    | error e => rfl
    | ok u =>
      -- behind the first program, what the second one reads is as unbound as in front of it
      have hsame : Scope.SameOn q.reads { layout := l, row := s.row } s := by
        refine ⟨hlayout,rfl,fun n hn => ?_⟩
        have hn' := lookup?_execAll (s := { layout := l, row }) fun hm => h n hm hn
        rw [hp] at hn'
        exact hn'
      obtain ⟨hscope,hresult⟩ := execAll_congr hsame (List.Subset.refl _)
      simp only [Program.run,hscope.row,hresult.eq]

end CellScript.Script
