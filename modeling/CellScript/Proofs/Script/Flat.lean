import Mathlib
import CellScript.Proofs.Script.Meaning
import CellScript.Proofs.Script.Statement
import CellScript.Proofs.Value.Flat

/-! The values of scripts are flat. A list starts as the cells of a slice, and whatever a script does
with it, it never comes to hold another list. -/
namespace CellScript

namespace Script

/-- A failure to compute something, and not to print what has been computed. -/
def Error.Computed (e : Error) : Prop := ∀ shown, e ≠ .unprintable shown

lemma gives_ofOperands {α : Type} {P : α → Prop} {x : Except Value.Fault α}
    (h : ∀ a, x = .ok a → P a) : Gives Error.Computed P (ofOperands x) := by
  cases x with
  | error fault => exact fun _ => nofun
  | ok a => exact h a rfl

lemma gives_ofRow {α : Type} {P : α → Prop} {x : Except Row.Error α} (h : ∀ a, x = .ok a → P a) :
    Gives Error.Computed P (ofRow x) := by
  cases x with
  | error e => exact fun _ => nofun
  | ok a => exact h a rfl

namespace Function

lemma plain_of_single {f : Value → Except ArgumentFault Value} (hf : ∀ {v u}, f v = .ok u → u.Plain)
    {args : List Value} {u : Value} (h : single args >>= f = .ok u) : u.Plain := by
  obtain ⟨v,-,hv⟩ := bind_eq_ok_iff.mp h
  exact hf hv

lemma plain_of_onText {name : Text} {f : Text → Text} {args : List Value} {u : Value}
    (h : onText name f args = .ok u) : u.Plain := by
  refine plain_of_single (fun {v u} h => ?_) h
  split at h
  · simp only [Except.ok.injEq] at h
    subst h
    simp
  · simp at h

lemma plain_of_roundArgs {args : List Value} {u : Value} (h : roundArgs args = .ok u) : u.Plain := by
  unfold roundArgs at h
  split at h
  · exact plain_of_rounded h
  · exact plain_of_rounded h
  · simp at h
  · simp at h

/-- The best of some values is one of them. -/
lemma mem_of_best {op : Compare} {v u : Value} {vs : List Value} (h : best op v vs = .ok u) :
    u ∈ v::vs := by
  induction vs generalizing v with
  | nil =>
    simp only [best,Except.ok.injEq] at h
    simp [h]
  | cons w vs ih =>
    rw [best,bind_eq_ok_iff] at h
    obtain ⟨better,-,h⟩ := h
    have hu := ih h
    cases better with
    | true => exact List.mem_cons_of_mem _ hu
    | false =>
      rcases List.mem_cons.mp hu with rfl | hu
      · exact List.mem_cons_self
      · exact List.mem_cons_of_mem _ (List.mem_cons_of_mem _ hu)

section

variable {P : Value → Prop} (hP : Value.Unbound P)

include hP

lemma holds_of_sequence {args : List Value} (h : ∀ v ∈ args, P v) : ∀ v ∈ sequence args, P v := by
  unfold sequence
  split
  · next o items =>
    have hitems : items.all Value.isItem = true := hP.flat (h _ (List.mem_singleton_self _))
    exact fun v hv => hP.plain (Value.plain_of_isItem (List.all_eq_true.mp hitems v hv))
  · exact h

lemma holds_of_extreme {name : Text} {op : Compare} {args : List Value} {u : Value}
    (h : ∀ v ∈ args, P v) (hu : extreme name op args = .ok u) : P u := by
  have hs := holds_of_sequence hP h
  unfold extreme at hu
  split at hu
  · simp at hu
  · next v rest hseq =>
    rw [hseq] at hs
    split at hu
    · next found hbest =>
      obtain rfl := Except.ok.inj hu
      exact hs _ (mem_of_best hbest)
    · simp at hu

/-- A function gives a plain value or one of its arguments. -/
theorem holds_of_apply (f : Function) {args : List Value} {u : Value}
    (h : ∀ v ∈ args, P v) (hu : f.apply args = .ok u) : P u := by
  cases f with
  | len => exact hP.plain (plain_of_single plain_of_length hu)
  | str => exact hP.plain (plain_of_single plain_of_toText hu)
  | int => exact hP.plain (plain_of_single plain_of_toInt hu)
  | float => exact hP.plain (plain_of_single plain_of_toFloat hu)
  | abs => exact hP.plain (plain_of_single plain_of_magnitude hu)
  | round => exact hP.plain (plain_of_roundArgs hu)
  | min => exact holds_of_extreme hP h hu
  | max => exact holds_of_extreme hP h hu
  | upper => exact hP.plain (plain_of_onText hu)
  | lower => exact hP.plain (plain_of_onText hu)
  | strip => exact hP.plain (plain_of_onText hu)

end

end Function

lemma gives_applyFunction {P : Value → Prop} (hP : Value.Unbound P) (name : Text) (f : Function)
    {args : List Value} (h : ∀ v ∈ args, P v) :
    Gives Error.Computed P (applyFunction name f args) := by
  unfold applyFunction
  cases hf : f.apply args with
  | error fault => exact fun _ => nofun
  | ok v => exact f.holds_of_apply hP h hf

lemma gives_viewOf (view : Option Text) : Gives Error.Computed (fun _ => True) (viewOf view) := by
  unfold viewOf
  split
  · trivial
  · split_ifs
    · trivial
    · trivial
    · trivial
    · exact fun _ => nofun

lemma gives_keyOf (v : Value) : Gives Error.Computed (fun _ => True) (keyOf v) := by
  cases v with
  | int | str => trivial
  | _ => exact fun _ => nofun

lemma gives_boundOf (v : Value) : Gives Error.Computed (fun _ => True) (boundOf v) := by
  cases v with
  | int => trivial
  | _ => exact fun _ => nofun

def Scope.All (P : Value → Prop) (s : Scope) : Prop := ∀ b ∈ s.vars, P b.2

lemma Scope.All.lookup? {P : Value → Prop} {s : Scope} (h : s.All P) {name : Text} {v : Value}
    (hv : s.lookup? name = some v) : P v := by
  obtain ⟨b,hb,rfl⟩ := Option.map_eq_some_iff.mp hv
  exact h b (List.mem_of_find?_eq_some hb)

section

variable {P : Value → Prop} {s : Scope}

mutual

/-- An expression has a value with the property when the variables have such values, or a failure that
printing has no part in. -/
theorem gives_eval (hP : Value.Unbound P) (hs : s.All P) :
    ∀ e : Expr, Gives Error.Computed P (eval s e)
  | .or a b => by
    rw [eval]
    refine (gives_eval hP hs a).bind fun v hv => ?_
    split
    · exact hv
    · exact gives_eval hP hs b
  | .and a b => by
    rw [eval]
    refine (gives_eval hP hs a).bind fun v hv => ?_
    split
    · exact gives_eval hP hs b
    · exact hv
  | .not a => by
    rw [eval]
    exact (gives_eval hP hs a).bind fun _ _ => hP.plain nofun
  | .compare op a b => by
    rw [eval]
    refine (gives_eval hP hs a).bind fun v _ => (gives_eval hP hs b).bind fun w _ => ?_
    exact (gives_ofOperands (P := fun _ => True) fun _ _ => trivial).bind fun _ _ => hP.plain nofun
  | .arith op a b => by
    rw [eval]
    refine (gives_eval hP hs a).bind fun v hv => (gives_eval hP hs b).bind fun w hw => ?_
    exact gives_ofOperands fun u hu => hP.arith hv hw hu
  | .signed op a => by
    rw [eval]
    refine (gives_eval hP hs a).bind fun v _ => ?_
    exact gives_ofOperands fun u hu => hP.plain (Value.plain_of_signed hu)
  | .float _ | .int _ | .string _ | .bool _ | .nil => by
    rw [eval]
    exact hP.plain nofun
  | .cell view key => by
    rw [eval]
    refine (gives_viewOf view).bind fun w _ => (gives_evalKey hP hs key).bind fun k _ => ?_
    refine gives_ofRow fun u hu => ?_
    obtain ⟨cell,-,hread⟩ := bind_eq_ok_iff.mp hu
    exact hP.plain (Value.plain_of_isItem (View.isItem_of_read hread))
  | .slice view lo hi => by
    rw [eval]
    refine (gives_viewOf view).bind fun w _ => (gives_evalBound hP hs lo).bind fun i _ =>
      (gives_evalBound hP hs hi).bind fun j _ => ?_
    exact (gives_ofRow fun us hus => View.isItem_of_slice hus).bind fun us hus =>
      hP.list (List.all_eq_true.mpr hus)
  | .call name args => by
    rw [eval]
    split
    · exact fun _ => nofun
    · exact (gives_evalAll hP hs args).bind fun vs hvs => gives_applyFunction hP name _ hvs
  | .var name pos => by
    rw [eval]
    split
    · next v hv => exact hs.lookup? hv
    · exact fun _ => nofun
  | .paren a => by
    rw [eval]
    exact gives_eval hP hs a

lemma gives_evalKey (hP : Value.Unbound P) (hs : s.All P) :
    ∀ key : Option Expr, Gives Error.Computed (fun _ => True) (evalKey s key)
  | none => by
    rw [evalKey]
    exact fun _ => nofun
  | some e => by
    rw [evalKey]
    exact (gives_eval hP hs e).bind fun v _ => gives_keyOf v

lemma gives_evalBound (hP : Value.Unbound P) (hs : s.All P) :
    ∀ bound : Option Expr, Gives Error.Computed (fun _ => True) (evalBound s bound)
  | none => by
    rw [evalBound]
    trivial
  | some e => by
    rw [evalBound]
    refine (gives_eval hP hs e).bind fun v _ => (gives_boundOf v).bind fun _ _ => ?_
    trivial

lemma gives_evalAll (hP : Value.Unbound P) (hs : s.All P) :
    ∀ es : List Expr, Gives Error.Computed (fun vs => ∀ v ∈ vs, P v) (evalAll s es)
  | [] => by
    rw [evalAll]
    exact List.forall_mem_nil _
  | e::es => by
    rw [evalAll]
    refine (gives_eval hP hs e).bind fun v hv => (gives_evalAll hP hs es).bind fun vs hvs => ?_
    exact List.forall_mem_cons.mpr ⟨hv,hvs⟩

end

end

def Scope.Flat (s : Scope) : Prop := s.All fun v => v.isFlat = true

/-- A statement keeps the values of variables flat. -/
lemma gives_exec {s : Scope} (hs : s.Flat) (st : Statement) :
    Gives Error.Computed Scope.Flat (exec s st) := by
  cases st with
  | eval e =>
    rw [exec]
    exact (gives_eval Value.unbound_isFlat hs e).bind fun _ _ => hs
  | bind pos name value =>
    rw [exec]
    refine (gives_eval Value.unbound_isFlat hs value).bind fun v hv => ?_
    exact List.forall_mem_cons.mpr ⟨(Value.isFlat_bindAt v pos).trans hv,hs⟩
  | store view key value =>
    rw [exec]
    refine (gives_eval Value.unbound_isFlat hs value).bind fun v _ => (gives_viewOf view).bind fun _ _ =>
      (gives_evalKey Value.unbound_isFlat hs key).bind fun k _ => ?_
    exact (gives_ofRow (P := fun _ => True) fun _ _ => trivial).bind fun _ _ => hs

/-- So do statements in sequence, as far as they get. -/
theorem gives_execAll {s : Scope} (hs : s.Flat) (sts : List Statement) :
    (execAll s sts).1.Flat ∧ Gives Error.Computed (fun _ => True) (execAll s sts).2 := by
  induction sts generalizing s with
  | nil => exact ⟨hs,trivial⟩
  | cons st rest ih =>
    have hst := gives_exec hs st
    rw [execAll]
    cases hx : exec s st with
    | error e =>
      rw [hx] at hst
      exact ⟨hs,hst⟩
    | ok s' =>
      rw [hx] at hst
      exact ih hst

lemma flat_start (l : Layout) (row : Row) : Scope.Flat { layout := l, row } := List.forall_mem_nil _

end Script

end CellScript
