import Mathlib
import CellScript.Proofs.Row.ExtraColumn

/-! Extra columns under a header and without one. A header gives a repeated name its last place among
the extra columns, and without a header it has its first one. The two agree on the names that stand
among them once. -/
namespace CellScript.Layout

/-- The first place of a name holds it, and no earlier place does. -/
lemma firstPosition?_eq_some_iff {name : Text} {xs : List Text} {i : ℕ} :
    firstPosition? name xs = some i ↔ xs[i]? = some name ∧ name ∉ xs.take i := by
  induction xs generalizing i with
  | nil => simp [firstPosition?]
  | cons x xs ih =>
    rw [firstPosition?]
    split
    · rename_i hx
      cases i <;> simp [hx]
    · rename_i hx
      cases i with
      | zero => simp [hx]
      | succ i => simp [ih,Ne.symm hx]

/-- The last place of a name holds it, and no later place does. -/
lemma lastPosition?_eq_some_iff {name : Text} {xs : List Text} {i : ℕ} :
    lastPosition? name xs = some i ↔ xs[i]? = some name ∧ name ∉ xs.drop (i+1) := by
  induction xs generalizing i with
  | nil => simp [lastPosition?]
  | cons x xs ih =>
    rw [lastPosition?]
    cases hx : lastPosition? name xs with
    | some j =>
      obtain ⟨hj,hlater⟩ := ih.mp hx
      have hmem : name ∈ xs := List.mem_of_getElem? hj
      cases i with
      | zero => simp [hmem]
      | succ i => simp [← ih,hx]
    | none =>
      have hmem : name ∉ xs := fun h => by
        have hsome := isSome_lastPosition? h
        simp [hx] at hsome
      cases i with
      | zero => simp [hmem]
      | succ i =>
        have hne : xs[i]? ≠ some name := fun h => hmem (List.mem_of_getElem? h)
        simp [hne]

/-- The first place of a name is its last one when it occurs once. -/
lemma firstPosition?_eq_lastPosition?_iff {name : Text} {xs : List Text} (h : name ∈ xs) :
    firstPosition? name xs = lastPosition? name xs ↔ xs.count name = 1 := by
  obtain ⟨i,hi⟩ := Option.isSome_iff_exists.mp (isSome_firstPosition? h)
  rw [hi,eq_comm,lastPosition?_eq_some_iff]
  obtain ⟨hat,hearlier⟩ := firstPosition?_eq_some_iff.mp hi
  have hsplit : xs = xs.take i ++ name::xs.drop (i+1) := by
    obtain ⟨hlt,hx⟩ := List.getElem?_eq_some_iff.mp hat
    rw [← hx,List.cons_getElem_drop_succ,List.take_append_drop]
  have hcount : xs.count name = (xs.drop (i+1)).count name + 1 := by
    conv_lhs => rw [hsplit]
    rw [List.count_append,List.count_eq_zero_of_not_mem hearlier,List.count_cons_self]
    omega
  simp [hcount,hat,List.count_eq_zero]

/-- An extra column in a row with as many cells as the header has. Under the header it stands at the
last place of its name among the extra columns, and without a header at the first one: the same
position when the name stands among them once, and only then. -/
theorem resolve_extra_alike_iff (extra header : List Text) (delimiter name : Text)
    (hname : name ∈ extra) :
    ∃ l first last, (new extra delimiter).register header = .ok l ∧
      (extra[first]? = some name ∧ name ∉ extra.take first) ∧
      (extra[last]? = some name ∧ name ∉ extra.drop (last+1)) ∧
      l.resolve header.length name = .ok (header.length+last) ∧
      (new extra delimiter).resolve header.length name = .ok (header.length+first) ∧
      (l.resolve header.length name = (new extra delimiter).resolve header.length name ↔
        extra.count name = 1) := by
  obtain ⟨first,hfirst⟩ := Option.isSome_iff_exists.mp (isSome_firstPosition? hname)
  obtain ⟨last,hlast⟩ := Option.isSome_iff_exists.mp (isSome_lastPosition? hname)
  have hheader : resolve { new extra delimiter with header := some header } header.length name =
      .ok (header.length+last) := by
    simp [resolve,position?,new,lastPosition?_append,hlast]
  have hnone : (new extra delimiter).resolve header.length name = .ok (header.length+first) := by
    simp [resolve,new,hfirst]
  refine ⟨{ new extra delimiter with header := some header },first,last,rfl,
    firstPosition?_eq_some_iff.mp hfirst,lastPosition?_eq_some_iff.mp hlast,hheader,hnone,?_⟩
  rw [← firstPosition?_eq_lastPosition?_iff hname,hfirst,hlast,hheader,hnone]
  simp [eq_comm]

/-- A name of the header that is an extra column as well. -/
theorem resolve_extra_alike_shared :
    let extra := [Text.ofString "x",Text.ofString "b"]
    let header := [Text.ofString "a",Text.ofString "b"]
    Text.ofString "b" ∈ extra ∧ ∃ l, (new extra (Text.ofString ",")).register header = .ok l ∧
      l.resolve 2 (Text.ofString "b") = (new extra (Text.ofString ",")).resolve 2
        (Text.ofString "b") := by
  intro extra header
  have hname : Text.ofString "b" ∈ extra := by decide
  obtain ⟨l,_,_,hl,-,-,-,-,halike⟩ :=
    resolve_extra_alike_iff extra header (Text.ofString ",") (Text.ofString "b") hname
  exact ⟨hname,l,hl,halike.mpr (by decide)⟩

/-- A repeated name has another position under a header than without one. -/
theorem resolve_extra_repeated :
    ¬ ∀ (extra header : List Text) (delimiter name : Text) (l : Layout), name ∈ extra →
      (new extra delimiter).register header = .ok l →
        l.resolve header.length name = (new extra delimiter).resolve header.length name := by
  intro h
  have hsame := h [Text.ofString "x",Text.ofString "x"] [Text.ofString "a"] (Text.ofString ",")
    (Text.ofString "x") _ (by decide) rfl
  exact absurd hsame (by decide)

end CellScript.Layout
