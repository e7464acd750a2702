import Mathlib
import CellScript.Proofs.Shorthand.Refusal

/-! The labels of new columns. A column without a label is named by its number among all the new
columns of its source, and a label that looks like such a name is a label like any other. -/
namespace CellScript.Shorthand

/-- The label that an accessor for a new column is written with, without white space around it. -/
def Token.label (t : Token) : Text := ((appended? t.content).getD []).trim

/-- The labels that the new columns of a source are written with, empty for those without one. -/
def labels (src : Text) : List Text :=
  ((scan src).filter fun t => t.kind = .append).map Token.label

def numberName (n : ℕ) : Text := "_" ++ Text.ofNat n

def columnNames (ls : List Text) : List Text :=
  ls.mapIdx fun i own => if own = [] then numberName (i+1) else own

lemma Token.label_of_newColumn {src : Text} {t : Token} (ht : t ∈ scan src) (hk : t.kind = .append)
    {cast : Cast} {own : Text} (h : t.newColumn = .ok (cast,own)) : t.label = own := by
  obtain ⟨cast',body,hbody⟩ := exists_bracketed ht (by rw [hk]; rfl)
  obtain ⟨rest,hrest⟩ := hbody.exists_appended hk
  have hsplit := hbody.split_eq
  rw [hbody.not_blankOnly (by simp [hk]),if_neg (by simp)] at hsplit
  rw [newColumn,hsplit] at h
  simp only [bind,Except.bind,hrest] at h
  split at h
  · simp at h
  · simp only [Except.ok.injEq,Prod.mk.injEq] at h
    rw [label,hbody.content_eq,hrest,← h.2]
    rfl

/-- A token adds the name of the column that it creates. -/
lemma Draft.newHeaders_of_visitStatement {src : Text} {quoting : Bool} {d e : Draft} {t : Token}
    (ht : t ∈ scan src) (h : d.visitStatement quoting t = .ok e) : e.newHeaders = d.newHeaders ++
      if t.kind = .append then
        [if t.label = [] then numberName (d.newHeaders.length+1) else t.label]
      else [] := by
  by_cases hk : t.kind = .append
  · obtain ⟨cast,own,hc,rfl⟩ := visitStatement_append_eq_ok hk h
    rw [if_pos hk,Token.label_of_newColumn ht hk hc,labelFor]
    simp [numberName,List.isEmpty_iff]
  · rcases visitStatement_newHeaders h with hsame | ⟨cast,own,happend,-⟩
    · rw [hsame,if_neg hk,List.append_nil]
    · exact absurd happend hk

/-- The columns of tokens behind other new columns are numbered on. -/
lemma Draft.newHeaders_of_foldlM {src : Text} {quoting : Bool} {ts : List Token}
    (hts : ts ⊆ scan src) {d e : Draft}
    (h : ts.foldlM (visitStatement quoting) d = .ok e) : e.newHeaders = d.newHeaders ++
      ((ts.filter fun t => t.kind = .append).map Token.label).mapIdx fun i own =>
        if own = [] then numberName (d.newHeaders.length+i+1) else own := by
  induction ts generalizing d with
  | nil =>
    obtain rfl : d = e := Except.ok.inj h
    simp
  | cons t ts ih =>
    rw [List.foldlM_cons,bind_eq_ok_iff] at h
    obtain ⟨f,hv,h⟩ := h
    have hf := newHeaders_of_visitStatement (hts (by simp : t ∈ t::ts)) hv
    have hrest := ih (fun u hu => hts (List.mem_cons_of_mem t hu)) h
    rw [hrest,hf]
    by_cases hk : t.kind = .append
    · simp [hk,Nat.add_assoc,Nat.add_comm 1]
    · simp [hk]

/-- The new columns of a source have the names that their labels give them. -/
lemma newHeaders_of_expand {quoting : Bool} {src : Text} {x : Expansion}
    (h : expand .statement quoting src = .ok x) : x.newHeaders = columnNames (labels src) := by
  obtain ⟨d,hd,rfl⟩ := expand_statement_eq_ok h
  have hheaders := Draft.newHeaders_of_foldlM (List.Subset.refl _) hd
  simpa [Draft.finish,columnNames,labels] using hheaders

lemma numberName_injective : Function.Injective numberName := by
  intro m n h
  have hdigits : Text.ofNat m = Text.ofNat n := List.append_cancel_left h
  rw [← Text.decimal_ofNat m,hdigits,Text.decimal_ofNat]

lemma numberName_ne_nil (n : ℕ) : numberName n ≠ [] := (isLabel_numbered n).ne_nil

/-- Of different labels, a name that is repeated is one of a number. -/
lemma nodup_columnNames_iff {ls : List Text} (h : (ls.filter (· ≠ [])).Nodup) :
    (columnNames ls).Nodup ↔ ∀ i, ls[i]? = some [] → numberName (i+1) ∉ ls := by
  rw [columnNames]
  constructor
  · intro hd i hi hmem
    obtain ⟨hlt,hown⟩ := List.getElem?_eq_some_iff.mp hi
    obtain ⟨j,hj,hlabel⟩ := List.getElem_of_mem hmem
    -- the column of the number and the one that has it for a label have one name
    have hsame := (@List.Nodup.getElem_inj_iff _ _ hd i (by simpa using hlt) j
      (by simpa using hj)).mp (by simp [hown,hlabel,numberName_ne_nil])
    subst hsame
    rw [hown] at hlabel
    exact numberName_ne_nil (i+1) hlabel.symm
  · intro hfree
    have hlabels := List.pairwise_iff_getElem.mp (List.pairwise_filter.mp h)
    refine List.pairwise_iff_getElem.mpr ?_
    intro i j hi hj hij
    simp only [List.length_mapIdx] at hi hj
    rw [List.getElem_mapIdx,List.getElem_mapIdx]
    by_cases hli : ls[i] = [] <;> by_cases hlj : ls[j] = []
    · rw [if_pos hli,if_pos hlj]
      intro hname
      have hnumber := numberName_injective hname
      omega
    · rw [if_pos hli,if_neg hlj]
      intro hname
      apply hfree i (by rw [List.getElem?_eq_getElem hi,hli])
      rw [hname]
      exact List.getElem_mem hj
    · rw [if_neg hli,if_pos hlj]
      intro hname
      apply hfree j (by rw [List.getElem?_eq_getElem hj,hlj])
      rw [← hname]
      exact List.getElem_mem hi
    · rw [if_neg hli,if_neg hlj]
      exact hlabels i j hi hj hij (by simpa using hli) (by simpa using hlj)

/-- The new columns of a source that is accepted, with no label written twice. They have their labels
for names and numbers where they have none, and no name is repeated exactly when no label is the
name of a column by its number. -/
theorem newHeaders_nodup_iff {quoting : Bool} {src : Text} {x : Expansion}
    (h : expand .statement quoting src = .ok x) (hd : ((labels src).filter (· ≠ [])).Nodup) :
    x.newHeaders = columnNames (labels src) ∧
    (x.newHeaders.Nodup ↔ ∀ i, (labels src)[i]? = some [] → numberName (i+1) ∉ labels src) := by
  have hnames := newHeaders_of_expand h
  refine ⟨hnames,?_⟩
  rw [hnames]
  exact nodup_columnNames_iff hd

/-- Two columns with labels and two without, one of the labels the number of a column that has
another name. -/
theorem newHeaders_nodup_mixed :
    let src := Text.ofString "s[+a] = 1; s[+] = 2; s[+ _1 ] = 3; f[ + ] = 4"
    ∃ x, expand .statement true src = .ok x ∧ ((labels src).filter (· ≠ [])).Nodup ∧
      x.newHeaders = ["a","_2","_1","_4"].map Text.ofString ∧ x.newHeaders.Nodup := by
  intro src
  obtain ⟨x,hx⟩ := exists_ok (x := expand .statement true src) (by decide +kernel)
  have hd : ((labels src).filter (· ≠ [])).Nodup := by decide +kernel
  have hnames : columnNames (labels src) = ["a","_2","_1","_4"].map Text.ofString := by
    decide +kernel
  have hlabels : labels src = ["a","","_1",""].map Text.ofString := by decide +kernel
  obtain ⟨hheaders,hnodup⟩ := newHeaders_nodup_iff hx hd
  refine ⟨x,hx,hd,hheaders.trans hnames,hnodup.mpr ?_⟩
  rw [hlabels]
  intro i hi
  match i with
  | 0 | 2 => exact absurd hi (by decide +kernel)
  | 1 | 3 => decide +kernel
  | i+4 => simp at hi

/-- A label that is the name of the second column by its number, which has no label. -/
theorem newHeaders_collide :
    let src := Text.ofString "s[+_2] = 1; s[+] = 2"
    ((labels src).filter (· ≠ [])).Nodup ∧
    expand .statement true src =
      .ok ⟨Text.ofString "row[\"_2\"] = 1;row[\"_2\"] = 2",["_2","_2"].map Text.ofString⟩ ∧
    ¬ (["_2","_2"].map Text.ofString).Nodup := by
  decide +kernel

end CellScript.Shorthand
