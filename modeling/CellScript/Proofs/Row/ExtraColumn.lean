import Mathlib
import CellScript.Row.Basic

/-! Writing an extra column. Its position lies behind the header's columns, or without a header behind
the cells of the line, and the other cells stay as they are. -/
namespace CellScript

namespace Layout

lemma lastPosition?_append (name : Text) (xs ys : List Text) :
    lastPosition? name (xs ++ ys) =
      ((lastPosition? name ys).map (xs.length + ·)).or (lastPosition? name xs) := by
  induction xs with
  | nil => cases h : lastPosition? name ys <;> simp [lastPosition?,h]
  | cons x xs ih =>
    rw [List.cons_append,lastPosition?,ih]
    cases h : lastPosition? name ys with
    | none => simp [lastPosition?]
    | some i =>
      simp only [Option.map_some,Option.some_or,List.length_cons,Option.some.injEq]
      omega

lemma isSome_lastPosition? {name : Text} {xs : List Text} (h : name ∈ xs) :
    (lastPosition? name xs).isSome := by
  induction xs with
  | nil => simp at h
  | cons x xs ih =>
    rw [lastPosition?]
    cases hx : lastPosition? name xs with
    | some i => rfl
    | none =>
      rcases List.mem_cons.mp h with rfl | h
      · simp
      · simp [hx] at ih
        exact absurd h ih

lemma isSome_firstPosition? {name : Text} {xs : List Text} (h : name ∈ xs) :
    (firstPosition? name xs).isSome := by
  induction xs with
  | nil => simp at h
  | cons x xs ih =>
    rw [firstPosition?]
    split
    · rfl
    · rename_i hne
      rcases List.mem_cons.mp h with rfl | h
      · exact absurd rfl hne
      · simpa using ih h

/-- The number of cells in front of the extra columns: those of the header, or without a header those
that the line had. -/
def width (l : Layout) (base : ℕ) : ℕ := (l.header.map List.length).getD base

/-- An extra column has a position, and it lies behind the columns that are not extra. -/
lemma resolve_extra {l : Layout} {name : Text} (h : name ∈ l.extra) (base : ℕ) :
    ∃ p, l.resolve base name = .ok p ∧ l.width base ≤ p := by
  cases hh : l.header with
  | some names =>
    obtain ⟨i,hi⟩ := Option.isSome_iff_exists.mp (isSome_lastPosition? h)
    refine ⟨names.length+i,?_,by simp [width,hh]⟩
    simp [resolve,position?,hh,lastPosition?_append,hi]
  | none =>
    obtain ⟨i,hi⟩ := Option.isSome_iff_exists.mp (isSome_firstPosition? h)
    exact ⟨base+i,by simp [resolve,hh,hi],by simp [width,hh]⟩

end Layout

namespace Row

lemma set_of_writePosition {l : Layout} {r : Row} {key : Key} {v : Value} {t : Text} {p : ℕ}
    (hv : v.text? = some t) (hp : r.writePosition l key = .ok p) :
    r.set l key v = .ok { r with cells := (pad r.cells (p+1)).set p t } := by
  rw [set,hv]
  simp only [hp]
  rfl

/-- A write changes no other cell. -/
lemma getElem?_set_pad {cells : List Text} {j p : ℕ} (hj : j < cells.length) (hne : j ≠ p)
    (t : Text) : ((pad cells (p+1)).set p t)[j]? = cells[j]? := by
  rw [List.getElem?_set_ne hne.symm,pad,List.getElem?_append_left hj]

/-- On a line as it is read, an extra column can be written. No other cell changes, and no cell of
the line at all when the header has as many columns as the line has cells, or when there is none. -/
theorem set_extra_column (l : Layout) (line name : Text) (hname : name ∈ l.extra) (v : Value)
    (hv : v.text?.isSome) :
    ∃ p r, l.resolve (parse l line).base name = .ok p ∧ l.width (parse l line).base ≤ p ∧
      (parse l line).set l (.name name) v = .ok r ∧ r.base = (parse l line).base ∧
      (∀ j < (parse l line).base, j ≠ p → r.cells[j]? = (parse l line).cells[j]?) ∧
      ((parse l line).base ≤ l.width (parse l line).base →
        r.cells.take (parse l line).base = (parse l line).cells) := by
  obtain ⟨t,ht⟩ := Option.isSome_iff_exists.mp hv
  obtain ⟨p,hp,hwidth⟩ := Layout.resolve_extra hname (parse l line).base
  have hbase : (parse l line).cells.length = (parse l line).base := rfl
  have hother : ∀ j < (parse l line).base, j ≠ p →
      ((pad (parse l line).cells (p+1)).set p t)[j]? = (parse l line).cells[j]? :=
    fun j hj hne => getElem?_set_pad hj hne t
  have hw : writePosition l (parse l line) (.name name) = .ok p := hp
  refine ⟨p,_,hp,hwidth,set_of_writePosition ht hw,rfl,hother,?_⟩
  intro hle
  apply List.ext_getElem?
  intro j
  rw [List.getElem?_take]
  split
  · rename_i hj
    exact hother j hj (by omega)
  · rename_i hj
    exact (List.getElem?_eq_none (by omega)).symm

/-- A line with one cell more than the header has columns. -/
theorem set_extra_column_ragged :
    let l := { Layout.new [Text.ofString "x"] (Text.ofString ",") with
      header := some [Text.ofString "a"] }
    Text.ofString "x" ∈ l.extra ∧ (Value.str (Text.ofString "9")).text?.isSome ∧
    ∃ p r, l.resolve 2 (Text.ofString "x") = .ok p ∧ 1 ≤ p ∧
      (parse l (Text.ofString "1,2")).set l (.name (Text.ofString "x")) (.str (Text.ofString "9")) =
        .ok r ∧ ∀ j < 2, j ≠ p → r.cells[j]? = [Text.ofString "1",Text.ofString "2"][j]? := by
  intro l
  have hname : Text.ofString "x" ∈ l.extra := by decide
  have hline : parse l (Text.ofString "1,2") = ⟨[Text.ofString "1",Text.ofString "2"],2⟩ := by
    decide +kernel
  obtain ⟨p,r,hp,hwidth,hset,-,hother,-⟩ :=
    set_extra_column l (Text.ofString "1,2") _ hname (.str (Text.ofString "9")) rfl
  rw [hline] at hp hwidth hother
  exact ⟨hname,rfl,p,r,hp,hwidth,hset,hother⟩

/-- With more cells than the header has columns, a line can lose one to an extra column. -/
theorem set_extra_column_overwrites :
    ¬ ∀ (l : Layout) (line name : Text) (v : Value) (r : Row), name ∈ l.extra → v.text?.isSome →
      (parse l line).set l (.name name) v = .ok r →
        r.cells.take (parse l line).base = (parse l line).cells := by
  intro h
  have hlost := h { Layout.new [Text.ofString "x"] (Text.ofString ",") with
    header := some [Text.ofString "a"] } (Text.ofString "1,2") (Text.ofString "x")
    (.str (Text.ofString "9")) ⟨[Text.ofString "1",Text.ofString "9"],2⟩ (by decide) rfl
    (by decide +kernel)
  exact absurd hlost (by decide +kernel)

end Row
end CellScript
