import Mathlib
import CellScript.Proofs.Row.Write
import CellScript.Proofs.Script.Flat
import CellScript.Proofs.Stream.Selection

/-! From values to texts. What scripts compute can always be printed, and the only values that no cell
takes are lists. -/
namespace CellScript

namespace Row

/-- A key that cannot be written is another failure than a value that cannot be stored. -/
lemma cause_of_writePosition {l : Layout} {r : Row} {key : Key} {e : Row.Error}
    (h : r.writePosition l key = .error e) : e.cause ≠ .cast := by
  cases key with
  | name name =>
    rw [writePosition] at h
    unfold Layout.resolve at h
    split at h <;> split at h <;> simp only [Except.error.injEq,reduceCtorEq] at h <;> subst h <;>
      simp [Error.cause]
  | index i =>
    rw [writePosition] at h
    split_ifs at h <;> simp only [Except.error.injEq] at h <;> subst h <;>
      simp [Error.cause]

/-- A value is refused for what it is just when it is a list. -/
theorem set_cast_iff {l : Layout} {r : Row} {key : Key} {v : Value} :
    (∃ e, r.set l key v = .error e ∧ e.cause = .cast) ↔ v.kind = .list := by
  rw [← text?_eq_none_iff]
  constructor
  · rintro ⟨e,he,hcast⟩
    by_contra hv
    obtain ⟨t,ht⟩ := Option.ne_none_iff_exists'.mp hv
    cases hp : r.writePosition l key with
    | ok p =>
      rw [set_of_writePosition ht hp] at he
      simp at he
    | error e' =>
      simp only [set,ht,hp,bind,Except.bind,Except.error.injEq] at he
      subst he
      exact cause_of_writePosition hp hcast
  · intro hv
    refine ⟨.unstorable key,?_,rfl⟩
    simp only [set,hv]

end Row

/-- What every value of a formula is. -/
lemma Script.Formula.gives_value (f : Script.Formula) (l : Layout) (row : Row) :
    Gives Script.Error.Computed (fun v => v.isFlat = true) (f.value l row) :=
  Script.gives_eval Value.unbound_isFlat (Script.flat_start l row) f.expr

namespace Stream

open Script (Error.Computed)

lemma plain_of_spread {v : Value} (h : v.isFlat = true) : ∀ u ∈ spread v, u.Plain := by
  cases v with
  | list o items =>
    have hitems : items.all Value.isItem = true := h
    exact fun u hu => Value.plain_of_isItem (List.all_eq_true.mp hitems u hu)
  | _ =>
    intro u hu
    rw [List.mem_singleton.mp hu]
    simp

/-- A flat value has a text for each of its fields. -/
lemma fieldsOf_of_isFlat {v : Value} (h : v.isFlat = true) :
    ∃ fields, fieldsOf v = .ok fields ∧ fields.map some = (spread v).map Value.text? := by
  have hplain := plain_of_spread h
  rw [fieldsOf]
  generalize spread v = items at hplain
  induction items with
  | nil => exact ⟨[],rfl,rfl⟩
  | cons u items ih =>
    obtain ⟨hu,hitems⟩ := List.forall_mem_cons.mp hplain
    obtain ⟨t,ht⟩ := Option.isSome_iff_exists.mp (Value.isSome_text? hu)
    obtain ⟨fields,hfields,htexts⟩ := ih hitems
    refine ⟨t::fields,?_,by rw [List.map_cons,List.map_cons,htexts,ht]⟩
    rw [List.mapM_cons,ht,hfields]
    rfl

/-- Selected values are printed as soon as there are all of them. -/
lemma values_matched (fs : List Script.Formula) (l : Layout) (row : Row) :
    Matched Eq (fun _ _ => True) (fs.mapM fun f => f.value l row) (project fs l row) := by
  induction fs with
  | nil => exact .ok trivial
  | cons f fs ih =>
    have hf := f.gives_value l row
    rw [project_cons,List.mapM_cons]
    generalize f.value l row = x at hf
    cases x with
    | error e => exact .error rfl
    | ok v =>
      obtain ⟨xs,hxs,-⟩ := fieldsOf_of_isFlat hf
      change Matched Eq _ _ (do
        let xs ← fieldsOf v
        return xs ++ (← project fs l row))
      rw [hxs]
      exact ih.bind fun _ _ _ => .ok trivial

/-- A row that cannot be printed has a selector without a value. -/
lemma output_eq_error_iff {p : Pipeline} {l : Layout} {row : Row} {e : Script.Error} :
    output p l row = .error e ↔ p.projection.mapM (fun f => f.value l row) = .error e := by
  have hvalues := values_matched p.projection l row
  rw [output_eq_fields,fields]
  split
  · next h =>
    rw [List.isEmpty_iff.mp h]
    simp [Except.map,pure,Except.pure]
  · generalize p.projection.mapM (fun f => f.value l row) = x at hvalues
    generalize project p.projection l row = y at hvalues
    cases hvalues with
    | ok _ => simp [Except.map]
    | error he => simp only [he,Except.map,Except.error.injEq]

lemma gives_output (p : Pipeline) (l : Layout) (row : Row) :
    Gives Error.Computed (fun _ => True) (output p l row) := by
  cases h : output p l row with
  | ok text => trivial
  | error e =>
    have hvalues := Gives.mapM p.projection fun f _ => f.gives_value l row
    rwa [output_eq_error_iff.mp h] at hvalues

lemma gives_meets (f : Option Script.Formula) (l : Layout) (row : Row) :
    Gives Error.Computed (fun _ => True) (meets f l row) := by
  cases f with
  | none => trivial
  | some f => exact (f.gives_value l row).bind fun _ _ => trivial

lemma gives_change (body : Option Script.Program) (l : Layout) (row : Row) :
    Gives Error.Computed (fun _ => True) (change body l row) := by
  cases body with
  | none => trivial
  | some program =>
    have hrun := (Script.gives_execAll (Script.flat_start l row) program.statements).2
    rw [change,Script.Program.run]
    generalize Script.execAll { layout := l, row } program.statements = x at hrun
    obtain ⟨s,x⟩ := x
    cases x with
    | ok _ => trivial
    | error e => exact hrun

lemma gives_inStage {α : Type} {P : α → Prop} {x : Except Script.Error α} (stage : Stage)
    (h : Gives Error.Computed P x) :
    Gives (fun e => e.2.Computed) P (Stream.inStage stage x) := by
  cases x <;> exact h

lemma gives_processRow (p : Pipeline) (l : Layout) (row : Row) :
    Gives (fun e => e.2.Computed) (fun _ => True) (processRow p l row) := by
  unfold processRow
  refine (gives_inStage .filter (gives_meets p.filter l row)).bind fun b _ => ?_
  split
  · trivial
  refine (gives_inStage .statement (gives_change p.body l row)).bind fun row' _ => ?_
  refine (gives_inStage .afterFilter (gives_meets p.afterFilter l row')).bind fun b _ => ?_
  split
  · trivial
  exact (gives_inStage .select (gives_output p l row')).bind fun _ _ => trivial

lemma gives_processHeader (p : Pipeline) (s : Stream) (raw : Text) :
    Gives (fun e => e.cause.Computed) (fun _ => True) (processHeader p s raw).2 := by
  unfold processHeader
  split
  · exact fun _ => nofun
  · next l row _ =>
    have hout := gives_output p l row
    dsimp only
    split
    · trivial
    · generalize output p l row = x at hout
      cases x with
      | ok text => trivial
      | error e => exact hout

lemma gives_process (p : Pipeline) (s : Stream) (raw : Text) :
    Gives (fun e => e.cause.Computed) (fun _ => True) (process p s raw).2 := by
  unfold process
  dsimp only
  split
  · exact gives_processHeader p _ raw
  · have hrow := gives_processRow p s.layout (rowOf s.layout raw)
    generalize processRow p s.layout (rowOf s.layout raw) = x at hrow
    cases x with
    | ok outcome => trivial
    | error e => exact hrow

lemma computed_of_runLines {p : Pipeline} {s : Stream} {ls : List Text} {e : Error}
    (h : (runLines p s ls).stop = some (.line e)) : e.cause.Computed := by
  induction ls generalizing s with
  | nil => simp [runLines] at h
  | cons raw rest ih =>
    have hfirst := gives_process p s raw
    rw [runLines] at h
    generalize process p s raw = x at h hfirst
    obtain ⟨s',x⟩ := x
    cases x with
    | ok outcome => exact ih h
    | error e' =>
      obtain rfl : e' = e := by simpa using h
      exact hfirst

/-- Whatever statements have run on a row, an expression has a flat value, if it has one. All of it has
a text, and a cell takes the value for what it is unless it is a list. So the conversion of selected
values to texts cannot fail: a row that is not printed lacks the value of a selector, and no run ends
with a value that cannot be printed. -/
theorem evaluated_values_flat :
    (∀ l row sts e v, Script.eval (Script.execAll { layout := l, row } sts).1 e = .ok v →
      v.isFlat = true ∧
      (∃ fields, fieldsOf v = .ok fields ∧ fields.map some = (spread v).map Value.text?) ∧
      ∀ l' (r : Row) key, (∃ e, r.set l' key v = .error e ∧ e.cause = .cast) ↔ v.kind = .list) ∧
    (∀ p l row e, output p l row = .error e ↔
      p.projection.mapM (fun f => f.value l row) = .error e) ∧
    ∀ p cancelled s input e, (run p cancelled s input).stop = some (.line e) →
      ∀ shown, e.cause ≠ .unprintable shown := by
  refine ⟨?_,fun p l row e => output_eq_error_iff,?_⟩
  · intro l row sts e v hv
    have hscope := (Script.gives_execAll (Script.flat_start l row) sts).1
    have hflat := Script.gives_eval Value.unbound_isFlat hscope e
    rw [hv] at hflat
    exact ⟨hflat,fieldsOf_of_isFlat hflat,fun _ _ _ => Row.set_cast_iff⟩
  · intro p cancelled s input e h
    exact computed_of_runLines (stop_runLines_of_line h)

end Stream

end CellScript
