import Mathlib
import CellScript.Proofs.Script.Flat
import CellScript.Proofs.Script.Programs
import CellScript.Proofs.Value.ListEquality

/-! The places where lists are bound. A program has no two statements at one place, so a place tells
which list it is, and lists from one place are equal since they are one list. -/
namespace CellScript.Script

open Value (Coherent IsProper Equal)

/-- A variable has a list that was bound at a place. -/
def Scope.Binds (s : Scope) (p : Text.Position) (xs : List Value) : Prop :=
  ∃ b ∈ s.vars, b.2 = .list (some p) xs

/-- A flat value that is no bound list but one of a variable. -/
def Scope.Knows (s : Scope) (v : Value) : Prop :=
  v.isFlat = true ∧ ∀ p xs, v = .list (some p) xs → s.Binds p xs

lemma unbound_knows (s : Scope) : Value.Unbound s.Knows where
  flat h := h.1
  plain h := ⟨h.isFlat,fun p xs hv => absurd (by rw [hv]; rfl) h⟩
  list h := ⟨h,fun p xs hv => by cases hv⟩

/-- Evaluation binds no list. -/
lemma knows_of_eval {s : Scope} (hs : s.Flat) {e : Expr} {v : Value} (h : eval s e = .ok v) :
    s.Knows v := by
  have hvars : s.All s.Knows := fun b hb => ⟨hs b hb,fun p xs hv => ⟨b,hb,hv⟩⟩
  have hgives := gives_eval (unbound_knows s) hvars e
  rwa [h] at hgives

def Statement.places : Statement → List Text.Position
  | .bind pos _ _ => [pos]
  | .eval _ | .store _ _ _ => []

/-- Flat variables, with lists from some places and one list from each. -/
structure Scope.Placed (s : Scope) (ps : List Text.Position) : Prop where
  flat : s.Flat
  place : ∀ {p xs}, s.Binds p xs → p ∈ ps
  unique : ∀ {p xs ys}, s.Binds p xs → s.Binds p ys → xs = ys

lemma Scope.Placed.coherent {s : Scope} {ps : List Text.Position} (h : s.Placed ps) {e e' : Expr}
    {v w : Value} (hv : eval s e = .ok v) (hw : eval s e' = .ok w) : Coherent v w :=
  fun p xs ys hxs hys => h.unique ((knows_of_eval h.flat hv).2 p xs hxs)
    ((knows_of_eval h.flat hw).2 p ys hys)

/-- A value that is bound at a place is a list from there, or it is from where it was. -/
lemma bindAt_eq_list {v : Value} {pos p : Text.Position} {xs : List Value}
    (h : v.bindAt pos = .list (some p) xs) :
    v = .list (some p) xs ∨ p = pos ∧ v = .list none xs := by
  cases v with
  | list o items =>
    cases o with
    | none =>
      simp only [Value.bindAt,Value.list.injEq,Option.some.injEq] at h
      obtain ⟨rfl,rfl⟩ := h
      exact Or.inr ⟨rfl,rfl⟩
    | some q => exact Or.inl h
  | _ => exact Or.inl h

/-- A list that is bound after a statement was bound before it, or it is fresh. -/
lemma Scope.Binds.of_bind {s : Scope} (hs : s.Flat) {value : Expr} {v : Value}
    (hv : eval s value = .ok v) {name : Text} {pos p : Text.Position} {xs : List Value}
    (h : Scope.Binds { s with vars := (name,v.bindAt pos)::s.vars } p xs) :
    s.Binds p xs ∨ p = pos ∧ v = .list none xs := by
  obtain ⟨b,hb,hlist⟩ := h
  rcases List.mem_cons.mp hb with rfl | hb
  · rcases bindAt_eq_list hlist with hold | hfresh
    · exact Or.inl ((knows_of_eval hs hv).2 p xs hold)
    · exact Or.inr hfresh
  · exact Or.inl ⟨b,hb,hlist⟩

lemma Scope.Placed.exec {s s' : Scope} {ps : List Text.Position} (h : s.Placed ps) {st : Statement}
    (hst : exec s st = .ok s') (hnew : ∀ p ∈ st.places, p ∉ ps) : s'.Placed (ps ++ st.places) := by
  have hflat : s'.Flat := by
    have hgives := gives_exec h.flat st
    rwa [hst] at hgives
  cases exec_eq_ok_iff.mp hst with
  | eval _ => exact ⟨hflat,fun hb => List.mem_append_left _ (h.place hb),h.unique⟩
  | store _ _ _ _ => exact ⟨hflat,fun hb => List.mem_append_left _ (h.place hb),h.unique⟩
  | @bind pos name value v hv =>
    have hpos : pos ∉ ps := hnew pos (List.mem_singleton_self pos)
    refine ⟨hflat,fun hb => ?_,fun hb hb' => ?_⟩
    · rcases hb.of_bind h.flat hv with hold | ⟨rfl,-⟩
      · exact List.mem_append_left _ (h.place hold)
      · exact List.mem_append_right _ (List.mem_singleton_self _)
    · -- no list of the scope before is from the place of the fresh one
      rcases hb.of_bind h.flat hv with hold | ⟨rfl,hfresh⟩ <;>
        rcases hb'.of_bind h.flat hv with hold' | ⟨hp,hfresh'⟩
      · exact h.unique hold hold'
      · exact absurd (hp ▸ h.place hold) hpos
      · exact absurd (h.place hold') hpos
      · rw [hfresh] at hfresh'
        exact (Value.list.inj hfresh').2

/-- Statements at places of their own bind one list at each, as far as they get. -/
lemma Scope.Placed.execAll {s : Scope} {ps : List Text.Position} (h : s.Placed ps)
    {sts : List Statement} (hnodup : (ps ++ sts.flatMap Statement.places).Nodup) :
    ∃ qs, (execAll s sts).1.Placed qs := by
  induction sts generalizing s ps with
  | nil => exact ⟨ps,h⟩
  | cons st rest ih =>
    rw [Script.execAll]
    cases hst : Script.exec s st with
    | error e => exact ⟨ps,h⟩
    | ok s' =>
      rw [List.flatMap_cons,← List.append_assoc] at hnodup
      have hnew : ∀ p ∈ st.places, p ∉ ps := fun p hp hps =>
        List.disjoint_of_nodup_append hnodup.of_append_left hps hp
      exact ih (h.exec hst hnew) hnodup

lemma placed_start (l : Layout) (row : Row) : Scope.Placed { layout := l, row } [] where
  flat := flat_start l row
  place := by simp [Scope.Binds]
  unique := by simp [Scope.Binds]

lemma Clause.places_check {c : Clause} {st : Statement} (h : c.check = .ok st) :
    st.places.Sublist [c.pos] := by
  unfold Clause.check at h
  split at h
  · obtain rfl := Except.ok.inj h
    exact List.nil_sublist _
  · obtain rfl := Except.ok.inj h
    exact List.Sublist.refl _
  · obtain rfl := Except.ok.inj h
    exact List.nil_sublist _
  · simp at h
  · simp at h

lemma places_of_clauses {cs : List Clause} {sts : List Statement}
    (h : List.Forall₂ (fun c st => c.check = .ok st) cs sts) :
    (sts.flatMap Statement.places).Sublist (cs.map Clause.pos) := by
  induction h with
  | nil => exact List.Sublist.refl _
  | cons hc _ ih => exact (Clause.places_check hc).append ih

/-- No two statements of a program bind at one place. -/
lemma Program.nodup_places {src : Text} {p : Program} (h : Program.compile src = .ok p) :
    (p.statements.flatMap Statement.places).Nodup := by
  obtain ⟨-,ls,cs,hls,hcs,hsts⟩ := Program.compile_eq_ok_iff.mp h
  exact (places_of_clauses (mapM_eq_ok_iff.mp hsts)).nodup
    ((clauses_eq_some hcs).2.nodup (Script.nodup_places hls))

/-- After any statements of a program, what expressions give are lists that agree on their places. -/
lemma Program.coherent {src : Text} {p : Program} (h : Program.compile src = .ok p)
    {sts : List Statement} (hsts : sts <+: p.statements) {l : Layout} {row : Row} {e e' : Expr}
    {v w : Value} (hv : eval (execAll { layout := l, row } sts).1 e = .ok v)
    (hw : eval (execAll { layout := l, row } sts).1 e' = .ok w) : Coherent v w := by
  obtain ⟨rest,hrest⟩ := hsts
  have hnodup := Program.nodup_places h
  rw [← hrest,List.flatMap_append] at hnodup
  obtain ⟨ps,hplaced⟩ := (placed_start l row).execAll hnodup.of_append_left
  exact hplaced.coherent hv hw

/-- Lists of numbers and texts are equal when they are of one length and their items are equal one by one,
each to an item of its own kind; otherwise they are different. Lists that share a place have to be one list
for that, as all the lists are that a program comes to compare. -/
theorem list_equality :
    (∀ o p xs ys, Coherent (.list o xs) (.list p ys) → (∀ x ∈ xs, IsProper x) →
      (∀ y ∈ ys, IsProper y) → ∃ b, Value.compare .eq (.list o xs) (.list p ys) = .ok b ∧
        Value.compare .ne (.list o xs) (.list p ys) = .ok !b ∧
        (b = true ↔ List.Forall₂ Equal xs ys)) ∧
    ∀ src p sts, Program.compile src = .ok p → sts <+: p.statements → ∀ l row e e' v w,
      eval (execAll { layout := l, row } sts).1 e = .ok v →
      eval (execAll { layout := l, row } sts).1 e' = .ok w → Coherent v w := by
  refine ⟨?_,?_⟩
  · intro o p xs ys hplace hx hy
    exact ⟨_,rfl,rfl,Value.same_list_iff hplace hx hy⟩
  · intro src p sts hp hsts l row e e' v w hv hw
    exact Program.coherent hp hsts hv hw

/-- A list of all kinds of items, compared with itself. -/
theorem list_equality_bound :
    let items := [Value.str (Text.ofString "a"),.int 2,.float 0.5]
    ∃ b, Value.compare .eq (.list (some {}) items) (.list (some {}) items) = .ok b ∧
      Value.compare .ne (.list (some {}) items) (.list (some {}) items) = .ok !b ∧
      (b = true ↔ List.Forall₂ Equal items items) := by
  intro items
  have hproper : ∀ x ∈ items, IsProper x :=
    List.forall_mem_cons.mpr ⟨trivial,List.forall_mem_cons.mpr ⟨trivial,
      List.forall_mem_singleton.mpr rfl⟩⟩
  have hplace : Coherent (.list (some {}) items) (.list (some {}) items) := by
    intro p xs ys hv hw
    exact (Value.list.inj hv).2.symm.trans (Value.list.inj hw).2
  exact list_equality.1 _ _ _ _ hplace hproper hproper

/-- One cell read as a word and as a floating point number: the numbers are equal, and the lists of them
are not. -/
theorem list_equality_mixed :
    let row := Row.ofCells [Text.ofString "1"]
    ∃ xs ys, View.int.slice row none none = .ok xs ∧ View.float.slice row none none = .ok ys ∧
      List.Forall₂ (fun x y => Value.compare .eq x y = .ok true) xs ys ∧
      Value.compare .eq (.list none xs) (.list none ys) = .ok false :=
  ⟨[.int 1],[.float 1],rfl,rfl,.cons rfl .nil,rfl⟩

end CellScript.Script
