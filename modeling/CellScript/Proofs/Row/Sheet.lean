import Mathlib
import CellScript.Proofs.Result
import CellScript.Proofs.Row.InPlace
import CellScript.Proofs.Row.RepeatedColumn

/-! Rows over one layout, whatever is asked of them and in whatever order. Rows only grow, the columns
are named at most once, and cells are looked up only where there are some. -/
namespace CellScript

namespace Row

/-- A cell is read at a position inside of the row. -/
lemma readPosition_lt {l : Layout} {r : Row} {key : Key} {p : ℕ}
    (h : r.readPosition l key = .ok p) : p < r.cells.length := by
  cases key with
  | name n =>
    rw [readPosition,bind_eq_ok_iff] at h
    obtain ⟨q,-,h⟩ := h
    split at h
    · rename_i hq
      rwa [← Except.ok.inj h]
    · simp at h
  | index i =>
    rw [readPosition] at h
    split at h
    · rename_i hq
      rw [← Except.ok.inj h]
      omega
    · simp at h

lemma get_eq_ok {l : Layout} {r : Row} {key : Key} {t : Text} (h : r.get l key = .ok t) :
    ∃ p, r.readPosition l key = .ok p ∧ r.cells[p]? = some t := by
  rw [get,bind_eq_ok_iff] at h
  obtain ⟨p,hp,h⟩ := h
  have hlt := readPosition_lt hp
  refine ⟨p,hp,?_⟩
  rw [← Except.ok.inj h,List.getD_eq_getElem _ _ hlt,List.getElem?_eq_getElem hlt]

/-- A row that is written grows as far as it has to, and no further. -/
lemma set_eq_ok {l : Layout} {r r' : Row} {key : Key} {v : Value} (h : r.set l key v = .ok r') :
    ∃ p t, r.writePosition l key = .ok p ∧ v.text? = some t ∧ r'.cells[p]? = some t ∧
      r'.cells.length = max r.cells.length (p+1) ∧ r'.base = r.base := by
  cases ht : v.text? with
  | none => simp [set,ht] at h
  | some t =>
    simp only [set,ht,bind_eq_ok_iff] at h
    obtain ⟨p,hp,h⟩ := h
    obtain rfl := Except.ok.inj h
    refine ⟨p,t,hp,rfl,?_,by simp [length_pad],rfl⟩
    rw [List.getElem?_set_self (by simp [length_pad])]

lemma clamp_le (n : ℕ) (i : ℤ) : clamp n i ≤ n := by
  unfold clamp
  omega

/-- A slice does not end in front of its start, nor behind the row. -/
lemma bounds_le (n : ℕ) (lo hi : Option ℤ) :
    (bounds n lo hi).1 ≤ (bounds n lo hi).2 ∧ (bounds n lo hi).2 ≤ n := by
  have hstart : (lo.map (clamp n)).getD 0 ≤ n := by
    cases lo with
    | none => exact Nat.zero_le n
    | some i => exact clamp_le n i
  have hstop : (hi.map (clamp n)).getD n ≤ n := by
    cases hi with
    | none => exact Nat.le_refl n
    | some i => exact clamp_le n i
  dsimp only [bounds]
  split <;> omega

/-- The cells of a slice are those from its first position up to its last one. -/
lemma slice_eq (r : Row) (lo hi : Option ℤ) :
    (r.slice lo hi).map some =
      (List.range' (bounds r.cells.length lo hi).1
        ((bounds r.cells.length lo hi).2-(bounds r.cells.length lo hi).1)).map (r.cells[·]?) := by
  obtain ⟨hstart,hstop⟩ := bounds_le r.cells.length lo hi
  unfold slice
  generalize bounds r.cells.length lo hi = b at hstart hstop ⊢
  apply List.ext_getElem
  · simp
    omega
  · intro j hj hj'
    have hlt : b.1+j < r.cells.length := by
      simp at hj'
      omega
    simp [hlt]

/-- A row is read, written and cut at positions that it has. -/
structure LooksInside (l : Layout) (r : Row) : Prop where
  get : ∀ key t, r.get l key = .ok t →
    ∃ p, r.readPosition l key = .ok p ∧ r.cells[p]? = some t
  set : ∀ key v r', r.set l key v = .ok r' →
    ∃ p t, r.writePosition l key = .ok p ∧ v.text? = some t ∧ r'.cells[p]? = some t ∧
      r'.cells.length = max r.cells.length (p+1) ∧ r'.base = r.base
  slice : ∀ lo hi, (bounds r.cells.length lo hi).1 ≤ (bounds r.cells.length lo hi).2 ∧
    (bounds r.cells.length lo hi).2 ≤ r.cells.length ∧
    (r.slice lo hi).map some =
      (List.range' (bounds r.cells.length lo hi).1
        ((bounds r.cells.length lo hi).2-(bounds r.cells.length lo hi).1)).map (r.cells[·]?)

lemma looksInside (l : Layout) (r : Row) : r.LooksInside l where
  get _ _ := get_eq_ok
  set _ _ _ := set_eq_ok
  slice lo hi := ⟨(bounds_le _ lo hi).1,(bounds_le _ lo hi).2,slice_eq r lo hi⟩

/-- The same row, perhaps with other texts in its cells and with more cells. -/
structure Grows (r r' : Row) : Prop where
  base : r'.base = r.base
  cells : r.cells.length ≤ r'.cells.length

lemma Grows.refl (r : Row) : r.Grows r := ⟨rfl,Nat.le_refl _⟩

lemma Grows.trans {r r' r'' : Row} (h : r.Grows r') (h' : r'.Grows r'') : r.Grows r'' :=
  ⟨h'.base.trans h.base,h.cells.trans h'.cells⟩

lemma grows_of_set {l : Layout} {r r' : Row} {key : Key} {v : Value}
    (h : r.set l key v = .ok r') : r.Grows r' := by
  obtain ⟨p,t,-,-,-,hlength,hbase⟩ := set_eq_ok h
  exact ⟨hbase,by omega⟩

end Row

namespace Sheet

/-- What is asked of a sheet: a step, or to read cells of a row through a view. -/
inductive Request where
  | step (x : Step)
  | get (row : ℕ) (view : View) (key : Key)
  | slice (row : ℕ) (view : View) (lo hi : Option ℤ)

def perform (s : Sheet) : Request → Sheet × Except Row.Error (List Value)
  | .step x =>
    let (s,result) := s.stepInPlace x
    (s,result.map fun _ => [])
  | .get row view key =>
    (s,match s.rows[row]? with
      | none => .ok []
      | some r => do return [← view.get s.layout r key])
  | .slice row view lo hi =>
    (s,match s.rows[row]? with
      | none => .ok []
      | some r => view.slice r lo hi)

def run (s : Sheet) (xs : List Request) : Sheet := xs.foldl (fun s x => (s.perform x).1) s

lemma run_cons (s : Sheet) (x : Request) (xs : List Request) :
    s.run (x::xs) = (s.perform x).1.run xs := rfl

inductive Becomes (s : Sheet) : Request → Sheet → Prop
  | same {x : Request} : Becomes s x s
  | pushed {x : Request} (cells : List Text) : Becomes s x (s.push (.ofCells cells))
  | grown {x : Request} {i : ℕ} {r r' : Row} : s.rows[i]? = some r → r.Grows r' →
      Becomes s x (s.put i r')
  | registered {i : ℕ} {r r' : Row} : s.rows[i]? = some r → r.Grows r' → s.layout.header = none →
      Becomes s (.step (.register i))
        { s.put i r' with layout := { s.layout with header := some (r.cells.take r.base) } }

lemma perform_register (s : Sheet) (i : ℕ) : s.perform (.step (.register i)) =
    match s.rows[i]?,s.layout.header with
    | none,_ => (s,.ok [])
    | some _,some _ => (s,.error .headerRegistered)
    | some r,none => ({ s.put i { r with cells := r.cells ++ s.layout.extra.map fun _ => [] } with
        layout := { s.layout with header := some (r.cells.take r.base) } },.ok []) := by
  rw [perform,stepInPlace_eq,apply,step]
  cases s.rows[i]? with
  | none => rfl
  | some r =>
    dsimp only
    rw [Row.register_eq]
    cases s.layout.header <;> rfl

lemma perform_set (s : Sheet) (i : ℕ) (key : Key) (v : Value) :
    s.perform (.step (.set i key v)) =
      match (s.rows[i]?).map fun r => r.set s.layout key v with
      | none => (s,.ok [])
      | some (.error e) => (s,.error e)
      | some (.ok r') => (s.put i r',.ok []) := by
  rw [perform,stepInPlace_eq,apply,step]
  cases s.rows[i]? with
  | none => rfl
  | some r =>
    dsimp only [Option.map_some]
    cases r.set s.layout key v <;> rfl

theorem becomes_perform (s : Sheet) (x : Request) : Becomes s x (s.perform x).1 := by
  cases x with
  | get row view key => exact .same
  | slice row view lo hi => exact .same
  | step x =>
    cases x with
    | parse line => exact .pushed _
    | add cells => exact .pushed cells
    | register i =>
      rw [perform_register]
      cases hr : s.rows[i]? with
      | none => exact .same
      | some r =>
        cases hh : s.layout.header with
        | some names => exact .same
        | none => exact .registered hr ⟨rfl,by simp⟩ hh
    | set i key v =>
      rw [perform_set]
      cases hr : s.rows[i]? with
      | none => exact .same
      | some r =>
        dsimp only [Option.map_some]
        cases hs : r.set s.layout key v with
        | error e => exact .same
        | ok r' => exact .grown hr (Row.grows_of_set hs)

lemma rows_of_put {s : Sheet} {i j : ℕ} {r r' q : Row} (hi : s.rows[i]? = some r)
    (hgrow : r.Grows r') (hj : s.rows[j]? = some q) :
    ∃ q', (s.put i r').rows[j]? = some q' ∧ q.Grows q' := by
  by_cases hij : i = j
  · subst hij
    obtain rfl := Option.some.inj (hi.symm.trans hj)
    obtain ⟨hlt,-⟩ := List.getElem?_eq_some_iff.mp hi
    exact ⟨r',List.getElem?_set_self hlt,hgrow⟩
  · exact ⟨q,(List.getElem?_set_ne hij).trans hj,.refl q⟩

/-- A request keeps every row at its place, and none of them loses cells. -/
lemma Becomes.rows {s s' : Sheet} {x : Request} (h : Becomes s x s') {j : ℕ} {q : Row}
    (hj : s.rows[j]? = some q) : ∃ q', s'.rows[j]? = some q' ∧ q.Grows q' := by
  cases h with
  | same => exact ⟨q,hj,.refl q⟩
  | pushed cells =>
    obtain ⟨hlt,-⟩ := List.getElem?_eq_some_iff.mp hj
    exact ⟨q,(List.getElem?_append_left hlt).trans hj,.refl q⟩
  | grown hi hgrow => exact rows_of_put hi hgrow hj
  | registered hi hgrow => exact rows_of_put hi hgrow hj

theorem rows_run {s : Sheet} (xs : List Request) {j : ℕ} {q : Row} (hj : s.rows[j]? = some q) :
    ∃ q', (s.run xs).rows[j]? = some q' ∧ q.Grows q' := by
  induction xs generalizing s q with
  | nil => exact ⟨q,hj,.refl q⟩
  | cons x xs ih =>
    obtain ⟨q',hq',hgrow⟩ := (becomes_perform s x).rows hj
    obtain ⟨q'',hq'',hgrow'⟩ := ih hq'
    exact ⟨q'',hq'',hgrow.trans hgrow'⟩

/-- Every row has the cells that it was read with. -/
def Based (s : Sheet) : Prop := ∀ r ∈ s.rows, r.base ≤ r.cells.length

lemma based_put {s : Sheet} (h : s.Based) {i : ℕ} {r r' : Row} (hi : s.rows[i]? = some r)
    (hgrow : r.Grows r') : (s.put i r').Based := by
  intro q hq
  rcases List.mem_or_eq_of_mem_set hq with hq | rfl
  · exact h q hq
  · have hr := h r (List.mem_of_getElem? hi)
    have hbase := hgrow.base
    have hcells := hgrow.cells
    omega

lemma Becomes.based {s s' : Sheet} {x : Request} (h : Becomes s x s') (hs : s.Based) :
    s'.Based := by
  cases h with
  | same => exact hs
  | pushed cells =>
    intro q hq
    rcases List.mem_append.mp hq with hq | hq
    · exact hs q hq
    · rw [List.mem_singleton.mp hq]
      exact Nat.le_refl _
  | grown hi hgrow => exact based_put hs hi hgrow
  | registered hi hgrow => exact based_put hs hi hgrow

theorem based_run {s : Sheet} (h : s.Based) (xs : List Request) : (s.run xs).Based := by
  induction xs generalizing s with
  | nil => exact h
  | cons x xs ih => exact ih ((becomes_perform s x).based h)

/-- The layout of a sheet after requests that name its columns in between: the header is the row that
was registered, as it was read. -/
structure Named (s : Sheet) (xs : List Request) (l : Layout) : Prop where
  unnamed : s.layout.header = none
  named : ∃ before i after r, xs = before ++ .step (.register i)::after ∧
    (s.run before).layout = s.layout ∧ (s.run before).rows[i]? = some r ∧
    l = { s.layout with header := some (r.cells.take r.base) }

lemma Named.cons {s : Sheet} {x : Request} {xs : List Request} {l : Layout}
    (hx : (s.perform x).1.layout = s.layout) (h : Named (s.perform x).1 xs l) :
    Named s (x::xs) l := by
  obtain ⟨hnone,before,i,after,r,rfl,hlayout,hr,hl⟩ := h
  rw [hx] at hnone hlayout hl
  exact ⟨hnone,x::before,i,after,r,rfl,hlayout,hr,hl⟩

/-- Once the columns are named, they keep their names. -/
lemma layout_run_of_header {s : Sheet} {names : List Text} (h : s.layout.header = some names)
    (xs : List Request) : (s.run xs).layout = s.layout := by
  induction xs generalizing s with
  | nil => rfl
  | cons x xs ih =>
    have hsame : (s.perform x).1.layout = s.layout := by
      generalize hs : (s.perform x).1 = s'
      have hstep := becomes_perform s x
      rw [hs] at hstep
      cases hstep with
      | same => rfl
      | pushed cells => rfl
      | grown hi hgrow => rfl
      | registered hi hgrow hnone => simp [h] at hnone
    rw [run_cons,ih (by rw [hsame,h]),hsame]

/-- Requests leave the columns as they are, or they name them. -/
theorem layout_run (s : Sheet) (xs : List Request) :
    (s.run xs).layout = s.layout ∨ Named s xs (s.run xs).layout := by
  induction xs generalizing s with
  | nil => exact Or.inl rfl
  | cons x xs ih =>
    rw [run_cons]
    have hkeep : (s.perform x).1.layout = s.layout →
        ((s.perform x).1.run xs).layout = s.layout ∨
          Named s (x::xs) ((s.perform x).1.run xs).layout := by
      intro hx
      rcases ih (s.perform x).1 with hsame | hnamed
      · exact Or.inl (hsame.trans hx)
      · exact Or.inr (hnamed.cons hx)
    generalize hs : (s.perform x).1 = s' at hkeep ⊢
    have hstep := becomes_perform s x
    rw [hs] at hstep
    cases hstep with
    | same => exact hkeep rfl
    | pushed cells => exact hkeep rfl
    | grown hi hgrow => exact hkeep rfl
    | @registered i r r' hi hgrow hnone =>
      refine Or.inr ⟨hnone,[],i,xs,r,rfl,rfl,hi,?_⟩
      rw [layout_run_of_header rfl]

lemma extra_run (s : Sheet) (xs : List Request) :
    (s.run xs).layout.extra = s.layout.extra := by
  rcases layout_run s xs with hsame | ⟨-,_,_,_,_,-,-,-,hnamed⟩
  · rw [hsame]
  · rw [hnamed]

/-- Whatever has been asked of a sheet, every row has the cells that it was read with, and its cells
are looked up inside of it. Whatever is asked next, no row loses cells. The columns keep their names,
or they had none and get those of a row as it was read and of the extra columns: a name then means the
last of its columns. To register a second header fails and changes nothing. -/
theorem sheet_history (extra : List Text) (delimiter : Text) (past more : List Request) :
    let start : Sheet := { layout := .new extra delimiter }
    let s := start.run past
    (∀ r ∈ s.rows, r.base ≤ r.cells.length ∧ r.LooksInside s.layout) ∧
    (∀ (j : ℕ) (r : Row), s.rows[j]? = some r → ∃ r', (s.run more).rows[j]? = some r' ∧
      r'.base = r.base ∧ r.cells.length ≤ r'.cells.length) ∧
    ((s.run more).layout = s.layout ∨ (∀ name, s.layout.position? name = none) ∧
      ∃ before i after r, more = before ++ .step (.register i)::after ∧
        (s.run before).layout = s.layout ∧ (s.run before).rows[i]? = some r ∧
        (s.run more).layout.hasHeader = true ∧
        ∀ name p, (s.run more).layout.position? name = some p ↔
          (r.cells.take r.base ++ extra)[p]? = some name ∧
            name ∉ (r.cells.take r.base ++ extra).drop (p+1)) ∧
    ∀ i e, (s.perform (.step (.register i))).2 = .error e →
      (s.perform (.step (.register i))).1 = s ∧ e = .headerRegistered ∧
        s.layout.hasHeader = true := by
  intro start s
  have hbased : s.Based := based_run (by simp [Based,start]) past
  have hextra : s.layout.extra = extra := extra_run start past
  refine ⟨fun r hr => ⟨hbased r hr,Row.looksInside _ r⟩,?_,?_,?_⟩
  · intro j r hj
    obtain ⟨r',hr',hgrow⟩ := rows_run more hj
    exact ⟨r',hr',hgrow.base,hgrow.cells⟩
  · rcases layout_run s more with hsame | ⟨hnone,before,i,after,r,hmore,hlayout,hr,hnamed⟩
    · exact Or.inl hsame
    · refine Or.inr ⟨fun name => by rw [Layout.position?,hnone],before,i,after,r,hmore,hlayout,hr,
        by rw [hnamed]; rfl,?_⟩
      intro name p
      rw [hnamed,Layout.position?,hextra]
      exact Layout.lastPosition?_eq_some_iff
  · intro i e he
    rw [perform_register] at he ⊢
    cases hr : s.rows[i]? with
    | none => simp [hr] at he
    | some r =>
      cases hh : s.layout.header with
      | none => simp [hr,hh] at he
      | some names =>
        rw [hr,hh] at he
        exact ⟨rfl,(Except.error.inj he).symm,by rw [Layout.hasHeader,hh]; rfl⟩

end Sheet
end CellScript
