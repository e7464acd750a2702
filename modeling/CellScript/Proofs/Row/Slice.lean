import Mathlib
import CellScript.Proofs.Row.Sheet
import CellScript.Row.View
import CellScript.Stream.Cause

/-! Slices. The cells between two bounds are read together as they are read one by one. -/
namespace CellScript

namespace Row

/-- A bound that counts from the end if it is negative, moved to an end of the row if it is outside. -/
def edge (n : ℕ) (b : ℤ) : ℤ := max 0 (min (if b < 0 then b + n else b) n)

/-- Where a slice starts and where it stops. -/
def start (n : ℕ) (lo : Option ℤ) : ℤ := (lo.map (edge n)).getD 0

def stop (n : ℕ) (hi : Option ℤ) : ℤ := (hi.map (edge n)).getD n

/-- The positions from one bound up to the other. -/
def between (n : ℕ) (lo hi : Option ℤ) : List ℕ := List.Ico (start n lo).toNat (stop n hi).toNat

lemma between_eq (n : ℕ) (lo hi : Option ℤ) :
    between n lo hi = List.range' (bounds n lo hi).1 ((bounds n lo hi).2 - (bounds n lo hi).1) := by
  have hstart : (start n lo).toNat = (lo.map (clamp n)).getD 0 := by cases lo <;> rfl
  have hstop : (stop n hi).toNat = (hi.map (clamp n)).getD n := by cases hi <;> rfl
  rw [between,List.Ico,hstart,hstop,bounds]
  dsimp only
  congr 1
  split <;> omega

lemma between_eq_nil {n : ℕ} {lo hi : Option ℤ} (h : stop n hi ≤ start n lo) :
    between n lo hi = [] :=
  List.Ico.eq_nil_of_le (Int.toNat_le_toNat h)

lemma slice_between (r : Row) (lo hi : Option ℤ) :
    List.Forall₂ (fun t j => r.cells[j]? = some t) (r.slice lo hi) (between r.cells.length lo hi) := by
  have h := slice_eq r lo hi
  rw [← between_eq,← List.forall₂_eq_eq_eq,List.forall₂_map_left_iff,List.forall₂_map_right_iff] at h
  exact h.imp fun _ _ => Eq.symm

lemma get_index {l : Layout} {r : Row} {j : ℕ} {t : Text} (h : r.cells[j]? = some t) :
    r.get l (.index j) = .ok t := by
  obtain ⟨hj,rfl⟩ := List.getElem?_eq_some_iff.mp h
  have hplace : fromEnd r.cells.length j = j := if_neg (by omega)
  have hposition : r.readPosition l (.index j) = .ok j := by
    rw [readPosition,hplace]
    exact if_pos ⟨by omega,by omega⟩
  rw [get,hposition]
  exact congrArg Except.ok (List.getD_eq_getElem _ _ hj)

end Row

namespace View

open Row (between)

/-- The same failure to read a text, of a slice and of the cell at a position. -/
inductive SameFault : Row.Error → Row.Error → Prop
  | unreadable (j : ℕ) (t : Text) (kind : NumberKind) (fault : Number.Fault) :
      SameFault (.unreadable .slice t kind fault) (.unreadable (.cell (.index j)) t kind fault)

lemma read_matched (v : View) (t : Text) (j : ℕ) :
    Matched SameFault Eq (v.read .slice t) (v.read (.cell (.index j)) t) := by
  cases v with
  | text => exact .ok rfl
  | int =>
    rw [read,read]
    cases Number.readInt t.trim with
    | ok n => exact .ok rfl
    | error fault => exact .error (.unreadable j t .int fault)
  | float =>
    rw [read,read]
    cases Number.readFloat t.trim with
    | ok x => exact .ok rfl
    | error fault => exact .error (.unreadable j t .float fault)

/-- A slice is read as its cells are. -/
lemma slice_matched (v : View) (l : Layout) (r : Row) (lo hi : Option ℤ) :
    Matched SameFault Eq (v.slice r lo hi)
      ((between r.cells.length lo hi).mapM fun j : ℕ => v.get l r (.index j)) := by
  have hcells : Matched SameFault (List.Forall₂ Eq) (v.slice r lo hi)
      ((between r.cells.length lo hi).mapM fun j : ℕ => v.get l r (.index j)) := by
    refine Matched.mapM (r.slice_between lo hi) fun t j hj => ?_
    rw [get,Row.get_index hj]
    exact v.read_matched t j
  rwa [List.forall₂_eq_eq_eq] at hcells

lemma SameFault.cause {e e' : Row.Error} (h : SameFault e e') : e.cause = .cast := by
  cases h
  rfl

/-- A slice gives what its cells give one by one, from the one bound up to the other. It fails just when
one of them cannot be read, for the same reason as the first of those, and in no other way. -/
theorem slice_reads (v : View) (l : Layout) (r : Row) (lo hi : Option ℤ) :
    (∀ us, v.slice r lo hi = .ok us ↔ List.Forall₂
      (fun (j : ℕ) u => v.get l r (.index j) = .ok u) (between r.cells.length lo hi) us) ∧
    (Row.stop r.cells.length hi ≤ Row.start r.cells.length lo → v.slice r lo hi = .ok []) ∧
    ((∃ e, v.slice r lo hi = .error e ∧ e.cause = .cast) ↔
      ∃ j ∈ between r.cells.length lo hi, ∃ e, v.get l r (.index j) = .error e) ∧
    ∀ e, v.slice r lo hi = .error e →
      ∃ (before : List ℕ) (j : ℕ) (after : List ℕ) (e' : Row.Error),
        between r.cells.length lo hi = before ++ j::after ∧
        (∀ i ∈ before, ∃ u, v.get l r (.index i) = .ok u) ∧
        v.get l r (.index j) = .error e' ∧ SameFault e e' := by
  have hmatched := v.slice_matched l r lo hi
  simp only [← mapM_eq_ok_iff,← exists_mapM_eq_error_iff]
  generalize hreads : (between r.cells.length lo hi).mapM (fun j : ℕ => v.get l r (.index j)) = y
    at hmatched ⊢
  generalize v.slice r lo hi = x at hmatched ⊢
  cases hmatched with
  | ok h =>
    subst h
    refine ⟨by simp,fun hempty => ?_,by simp,by simp⟩
    rw [Row.between_eq_nil hempty] at hreads
    exact hreads.symm
  | @error e e' hfault =>
    obtain ⟨before,j,after,hsplit,hbefore,hj⟩ := mapM_eq_error_iff.mp hreads
    refine ⟨by simp,fun hempty => ?_,by simp [hfault.cause],fun e₀ he => ?_⟩
    · simp [Row.between_eq_nil hempty] at hsplit
    · obtain rfl := Except.error.inj he
      exact ⟨before,j,after,e',hsplit,hbefore,hj,hfault⟩

end View
end CellScript
