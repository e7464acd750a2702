import Mathlib
import CellScript.Script.Eval

/-! Chains of conditions. A chain gives the value of an operand and not a boolean, but whether it holds is
told by the operands one by one, up to the one that decides or fails. So the negation of a chain is the
other chain of the negated operands, in what it gives and in how it fails. -/
namespace CellScript.Script.Expr

/-- Operands with "and" between them. A chain leans to the left. -/
def allOf (e : Expr) (es : List Expr) : Expr := es.foldl .and e

/-- Operands with "or" between them. -/
def anyOf (e : Expr) (es : List Expr) : Expr := es.foldl .or e

def denied (e : Expr) : Expr := .paren (.not e)

/-- Whether the value of an expression counts as true. -/
def holds (s : Scope) (e : Expr) : Except Error Bool := Value.truthy <$> eval s e

variable {s : Scope} {e f : Expr}

lemma holds_paren : holds s (.paren e) = holds s e := by
  grind [holds]

lemma holds_not : holds s (.not e) = (!·) <$> holds s e := by
  rw [holds,holds,eval]
  cases eval s e <;> rfl

lemma holds_denied : holds s e.denied = (!·) <$> holds s e := by
  rw [denied,holds_paren,holds_not]

/-- The second operand is looked at only if the first holds. -/
lemma holds_and :
    holds s (.and e f) = (do if ← holds s e then holds s f else pure false) := by
  rw [holds,holds,eval]
  cases eval s e with
  | error fault => rfl
  | ok v =>
    simp only [bind,Except.bind,Functor.map,Except.map]
    cases hv : v.truthy with
    | false => simp [pure,Except.pure,hv]
    | true => simp [holds,Functor.map,Except.map]

/-- The second operand is looked at only if the first does not hold. -/
lemma holds_or :
    holds s (.or e f) = (do if ← holds s e then pure true else holds s f) := by
  rw [holds,holds,eval]
  cases eval s e with
  | error fault => rfl
  | ok v =>
    simp only [bind,Except.bind,Functor.map,Except.map]
    cases hv : v.truthy with
    | false => simp [holds,Functor.map,Except.map]
    | true => simp [pure,Except.pure,hv]

/-- The operands are asked in turn until one does not hold. -/
theorem holds_allOf (e : Expr) (es : List Expr) :
    holds s (e.allOf es) = (e::es).allM (holds s) := by
  induction es generalizing e with
  | nil =>
    rw [allOf,List.foldl_nil,List.allM_cons,List.allM_nil]
    cases holds s e with
    | error fault => rfl
    | ok b => cases b <;> rfl
  | cons f es ih =>
    have hstep : e.allOf (f::es) = (Expr.and e f).allOf es := rfl
    rw [hstep,ih,List.allM_cons,List.allM_cons,List.allM_cons,holds_and]
    cases holds s e with
    | error fault => rfl
    | ok b => cases b <;> rfl

/-- The operands are asked in turn until one holds. -/
theorem holds_anyOf (e : Expr) (es : List Expr) :
    holds s (e.anyOf es) = (e::es).anyM (holds s) := by
  induction es generalizing e with
  | nil =>
    rw [anyOf,List.foldl_nil,List.anyM_cons,List.anyM_nil]
    cases holds s e with
    | error fault => rfl
    | ok b => cases b <;> rfl
  | cons f es ih =>
    have hstep : e.anyOf (f::es) = (Expr.or e f).anyOf es := rfl
    rw [hstep,ih,List.anyM_cons,List.anyM_cons,List.anyM_cons,holds_or]
    cases holds s e with
    | error fault => rfl
    | ok b => cases b <;> rfl

/-- The value of an expression, if it has one, is the boolean that says whether it holds. -/
def IsBoolean (s : Scope) (e : Expr) : Prop := eval s e = Value.bool <$> holds s e

lemma isBoolean_not : IsBoolean s (.not e) := by
  rw [IsBoolean,holds_not,holds,eval]
  cases eval s e <;> rfl

lemma isBoolean_denied : IsBoolean s e.denied := by
  rw [IsBoolean,denied,holds_paren,eval]
  exact isBoolean_not

lemma IsBoolean.and (he : IsBoolean s e) (hf : IsBoolean s f) : IsBoolean s (.and e f) := by
  rw [IsBoolean,holds_and,eval,he]
  cases holds s e with
  | error fault => rfl
  | ok b =>
    cases b with
    | false => rfl
    | true => exact hf

lemma IsBoolean.or (he : IsBoolean s e) (hf : IsBoolean s f) : IsBoolean s (.or e f) := by
  rw [IsBoolean,holds_or,eval,he]
  cases holds s e with
  | error fault => rfl
  | ok b =>
    cases b with
    | false => exact hf
    | true => rfl

/-- An operator that joins booleans to booleans does so along a chain. -/
lemma IsBoolean.foldl {join : Expr → Expr → Expr}
    (hjoin : ∀ {e f}, IsBoolean s e → IsBoolean s f → IsBoolean s (join e f)) (he : IsBoolean s e)
    {es : List Expr} (hes : ∀ f ∈ es, IsBoolean s f) : IsBoolean s (es.foldl join e) := by
  induction es generalizing e with
  | nil => exact he
  | cons f es ih =>
    obtain ⟨hf,hes⟩ := List.forall_mem_cons.mp hes
    exact ih (hjoin he hf) hes

lemma isBoolean_map_denied (es : List Expr) : ∀ f ∈ es.map denied, IsBoolean s f :=
  List.forall_mem_map.mpr fun _ _ => isBoolean_denied

lemma anyM_denied (es : List Expr) :
    (es.map denied).anyM (holds s) = (!·) <$> es.allM (holds s) := by
  induction es with
  | nil => rfl
  | cons f es ih =>
    rw [List.map_cons,List.anyM_cons,List.allM_cons,holds_denied,ih]
    cases holds s f with
    | error fault => rfl
    | ok b => cases b <;> rfl

lemma allM_denied (es : List Expr) :
    (es.map denied).allM (holds s) = (!·) <$> es.anyM (holds s) := by
  induction es with
  | nil => rfl
  | cons f es ih =>
    rw [List.map_cons,List.allM_cons,List.anyM_cons,holds_denied,ih]
    cases holds s f with
    | error fault => rfl
    | ok b => cases b <;> rfl

/-- The negation of a chain and the other chain of the negated operands give the same boolean or fail in
the same way, whatever the operands are. They give the negation of what the operands say in turn, up to
the first that does not hold, or that does, or that fails. -/
theorem eval_denied_chain (s : Scope) (e : Expr) (es : List Expr) :
    (eval s (.not (.paren (e.allOf es))) = eval s (e.denied.anyOf (es.map denied)) ∧
      eval s (.not (.paren (e.allOf es))) = Value.bool <$> (!·) <$> (e::es).allM (holds s)) ∧
    (eval s (.not (.paren (e.anyOf es))) = eval s (e.denied.allOf (es.map denied)) ∧
      eval s (.not (.paren (e.anyOf es))) = Value.bool <$> (!·) <$> (e::es).anyM (holds s)) := by
  have hall : eval s (.not (.paren (e.allOf es))) =
      Value.bool <$> (!·) <$> (e::es).allM (holds s) := by
    rw [isBoolean_not,holds_not,holds_paren,holds_allOf]
  have hany : eval s (.not (.paren (e.anyOf es))) =
      Value.bool <$> (!·) <$> (e::es).anyM (holds s) := by
    rw [isBoolean_not,holds_not,holds_paren,holds_anyOf]
  refine ⟨⟨?_,hall⟩,?_,hany⟩
  · have hboolean : IsBoolean s (e.denied.anyOf (es.map denied)) :=
      isBoolean_denied.foldl IsBoolean.or (isBoolean_map_denied es)
    rw [hall,hboolean,holds_anyOf,← List.map_cons,anyM_denied]
  · have hboolean : IsBoolean s (e.denied.allOf (es.map denied)) :=
      isBoolean_denied.foldl IsBoolean.and (isBoolean_map_denied es)
    rw [hany,hboolean,holds_allOf,← List.map_cons,allM_denied]

end CellScript.Script.Expr
