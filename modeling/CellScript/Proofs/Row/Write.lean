import Mathlib
import CellScript.Proofs.Row.Sheet

/-! Writing a cell. A write is exact: it puts one text at one position and leaves the other cells as
they are. It is also atomic, although a row grows while its position is still looked for: a write that
fails leaves the row as it was. -/
namespace CellScript.Row

/-- The position that a key means when it is written: inside of the row or right behind it, or wherever
the column of a name is. -/
def Means (l : Layout) (r : Row) : Key → ℕ → Prop
  | .index i,p => -(r.cells.length : ℤ) ≤ i ∧ i ≤ r.cells.length ∧
      (p : ℤ) = if i < 0 then r.cells.length+i else i
  | .name name,p => l.resolve r.base name = .ok p

theorem writePosition_eq_ok_iff {l : Layout} {r : Row} {key : Key} {p : ℕ} :
    r.writePosition l key = .ok p ↔ r.Means l key p := by
  cases key with
  | name name => rfl
  | index i =>
    have hend : (if i < 0 then r.cells.length+i else i) = fromEnd r.cells.length i := by
      rw [fromEnd]
      split <;> omega
    have hinside : -(r.cells.length : ℤ) ≤ i ∧ i ≤ r.cells.length ↔
        0 ≤ fromEnd r.cells.length i ∧ fromEnd r.cells.length i ≤ r.cells.length := by
      rw [fromEnd]
      split <;> omega
    rw [writePosition,Means,hend,← and_assoc,hinside]
    generalize fromEnd r.cells.length i = q
    rcases lt_or_ge q 0 with hneg | hpos
    · simp only [if_pos hneg,reduceCtorEq,false_iff]
      omega
    · rcases le_or_gt q r.cells.length with hle | hgt
      · simp only [if_neg hpos.not_gt,if_pos hle,Except.ok.injEq]
        omega
      · simp only [if_neg hpos.not_gt,if_neg hgt.not_ge,reduceCtorEq,false_iff]
        omega

lemma text?_eq_none_iff {v : Value} : v.text? = none ↔ v.kind = .list := by
  cases v <;> simp [Value.text?,Value.kind]

/-- What a write makes of a row. The row grows as far as it has to, with empty cells. -/
structure Written (r : Row) (p : ℕ) (t : Text) (r' : Row) : Prop where
  length : r'.cells.length = max r.cells.length (p+1)
  cell : r'.cells[p]? = some t
  old : ∀ i < r.cells.length, i ≠ p → r'.cells[i]? = r.cells[i]?
  fresh : ∀ i, r.cells.length ≤ i → i < p → r'.cells[i]? = some []
  base : r'.base = r.base

lemma written_set (r : Row) (p : ℕ) (t : Text) :
    r.Written p t { r with cells := (pad r.cells (p+1)).set p t } where
  length := by simp [length_pad]
  cell := List.getElem?_set_self (by simp [length_pad])
  old i hi hne := getElem?_set_pad hi hne t
  fresh i hi hp := by
    have hlt : i-r.cells.length < p+1-r.cells.length := by omega
    rw [List.getElem?_set_ne hp.ne',pad,List.getElem?_append_right hi,
      List.getElem?_replicate_of_lt hlt]
  base := rfl

lemma set_eq_ok_iff {l : Layout} {r r' : Row} {key : Key} {v : Value} :
    r.set l key v = .ok r' ↔ ∃ p t, r.Means l key p ∧ v.text? = some t ∧
      r' = { r with cells := (pad r.cells (p+1)).set p t } := by
  constructor
  · intro h
    obtain ⟨p,t,hp,ht,-⟩ := set_eq_ok h
    rw [set_of_writePosition ht hp] at h
    exact ⟨p,t,writePosition_eq_ok_iff.mp hp,ht,(Except.ok.inj h).symm⟩
  · rintro ⟨p,t,hp,ht,rfl⟩
    exact set_of_writePosition ht (writePosition_eq_ok_iff.mpr hp)

/-- The key that was written means the same position when it is read. -/
lemma Written.readPosition {l : Layout} {r r' : Row} {key : Key} {p : ℕ} {t : Text}
    (h : r.Written p t r') (hp : r.Means l key p) : r'.readPosition l key = .ok p := by
  have hlength := h.length
  cases key with
  | name name =>
    have hresolve : l.resolve r'.base name = .ok p := by
      rw [h.base]
      exact hp
    simp only [Row.readPosition,hresolve,bind,Except.bind]
    rw [if_pos (by omega)]
  | index i =>
    obtain ⟨hlow,hhigh,hi⟩ := hp
    -- a position that counts from the end is inside of the row, which then does not grow
    have hend : fromEnd r'.cells.length i = p := by
      rw [fromEnd]
      split at hi <;> split <;> omega
    simp only [Row.readPosition,hend]
    rw [if_pos ⟨by omega,by omega⟩,Int.toNat_natCast]

/-- A key reads as the text that was written at it. -/
theorem get_set {l : Layout} {r r' : Row} {key : Key} {v : Value} {t : Text}
    (hv : v.text? = some t) (h : r.set l key v = .ok r') : r'.get l key = .ok t := by
  obtain ⟨p,u,hp,hu,rfl⟩ := set_eq_ok_iff.mp h
  obtain rfl := Option.some.inj (hv.symm.trans hu)
  have hw := r.written_set p t
  rw [get,hw.readPosition hp]
  simp only [bind,Except.bind,pure,Except.pure,List.getD_eq_getElem?_getD,hw.cell,Option.getD_some]

/-- A write succeeds when its value is no list and its key means a position: one inside of the row or
right behind it, or the column of a name. Then the row has so many cells as the position asks for, the
text of the value is at the position and is read there by the same key, the other cells are as they
were, and those that were added are empty. A write that fails leaves the row as it was, though it goes
on step by step and adds cells before it knows all. -/
theorem write_exact (l : Layout) (r : Row) (key : Key) (v : Value) :
    ((∃ r', r.set l key v = .ok r') ↔ v.kind ≠ .list ∧ ∃ p, r.Means l key p) ∧
    (∀ r', r.set l key v = .ok r' → ∃ p t, r.Means l key p ∧ v.text? = some t ∧
      r.Written p t r' ∧ r'.get l key = .ok t) ∧
    (∀ r', r.writeInPlace l key v = (r',.ok ()) ↔ r.set l key v = .ok r') ∧
    ∀ r' e, r.writeInPlace l key v = (r',.error e) ↔ r' = r ∧ r.set l key v = .error e := by
  refine ⟨⟨?_,?_⟩,?_,?_,?_⟩
  · rintro ⟨r',h⟩
    obtain ⟨p,t,hp,ht,-⟩ := set_eq_ok_iff.mp h
    refine ⟨fun hlist => ?_,p,hp⟩
    rw [text?_eq_none_iff.mpr hlist] at ht
    exact absurd ht (by simp)
  · rintro ⟨hlist,p,hp⟩
    obtain ⟨t,ht⟩ := Option.ne_none_iff_exists'.mp (mt text?_eq_none_iff.mp hlist)
    exact ⟨_,set_eq_ok_iff.mpr ⟨p,t,hp,ht,rfl⟩⟩
  · intro r' h
    obtain ⟨p,t,hp,ht,rfl⟩ := set_eq_ok_iff.mp h
    exact ⟨p,t,hp,ht,r.written_set p t,get_set ht h⟩
  · intro r'
    rw [writeInPlace_eq]
    cases r.set l key v <;> simp
  · intro r' e
    rw [writeInPlace_eq]
    cases r.set l key v <;> simp [eq_comm]

end CellScript.Row
