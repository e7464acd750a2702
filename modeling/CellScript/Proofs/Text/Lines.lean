import Mathlib
import CellScript.Text.Basic

/-! Pieces and lines of a text. A text that ends its last line can be followed by another text, whose
lines come after its own. Joining the pieces of a text gives the text again, and cutting joined pieces gives
the pieces again if none of them shares a byte with the separator. -/
namespace CellScript.Text

lemma splitFrom_ne_nil (sep : Text) (skip : ℕ) (t : Text) : splitFrom sep skip t ≠ [] := by
  induction t generalizing skip with
  | nil => cases skip <;> simp [splitFrom]
  | cons b t ih =>
    cases skip with
    | succ skip => exact ih skip
    | zero =>
      rw [splitFrom]
      split
      · simp
      · cases h : splitFrom sep 0 t <;> simp [consFirst]

lemma consFirst_append {b : UInt8} {ps qs : List Text} (h : ps ≠ []) :
    consFirst b (ps ++ qs) = consFirst b ps ++ qs := by
  obtain ⟨p,ps,rfl⟩ := List.exists_cons_of_ne_nil h
  rfl

lemma splitFrom_eq_splitOn_drop (sep : Text) (skip : ℕ) (t : Text) :
    splitFrom sep skip t = splitOn sep (t.drop skip) := by
  induction t generalizing skip with
  | nil => cases skip <;> rfl
  | cons b t ih =>
    cases skip with
    | zero => rfl
    | succ skip => exact ih skip

lemma splitOn_append_self {sep : Text} (hsep : sep ≠ []) (t : Text) :
    splitOn sep (sep ++ t) = []::splitOn sep t := by
  obtain ⟨c,sep,rfl⟩ := List.exists_cons_of_ne_nil hsep
  have hpre : (c::sep).isPrefixOf (c::(sep ++ t)) = true :=
    List.isPrefixOf_iff_prefix.mpr (List.prefix_append (c::sep) t)
  rw [List.cons_append,splitOn,splitFrom,if_pos hpre,splitFrom_eq_splitOn_drop]
  simp

lemma splitOn_cons_of_not_mem {sep : Text} (hsep : sep ≠ []) {b : UInt8} (hb : b ∉ sep) (t : Text) :
    splitOn sep (b::t) = consFirst b (splitOn sep t) := by
  obtain ⟨c,sep,rfl⟩ := List.exists_cons_of_ne_nil hsep
  have hcb : c ≠ b := fun hcb => hb (hcb ▸ List.mem_cons_self ..)
  simp [splitOn,splitFrom,hcb]

lemma splitOn_cons_self (c : UInt8) (t : Text) : splitOn [c] (c::t) = []::splitOn [c] t :=
  splitOn_append_self (by simp) t

lemma splitOn_cons_of_ne {b c : UInt8} (h : c ≠ b) (t : Text) :
    splitOn [c] (b::t) = consFirst b (splitOn [c] t) :=
  splitOn_cons_of_not_mem (by simp) (by simpa using h.symm) t

/-- A text is cut at a separating byte into the pieces before it and the pieces after it. -/
lemma splitOn_append_cons (c : UInt8) (t u : Text) :
    splitOn [c] (t ++ c::u) = splitOn [c] t ++ splitOn [c] u := by
  induction t with
  | nil =>
    rw [List.nil_append,splitOn_cons_self]
    rfl
  | cons b t ih =>
    rw [List.cons_append]
    by_cases h : c = b
    · subst h
      rw [splitOn_cons_self,splitOn_cons_self,ih,List.cons_append]
    · have hne : splitOn [c] t ≠ [] := splitFrom_ne_nil _ _ _
      rw [splitOn_cons_of_ne h,splitOn_cons_of_ne h,ih,consFirst_append hne]

lemma lines_nil : lines [] = [] := by simp [lines,splitOn,splitFrom]

/-- A line feed at the end starts no line of its own. -/
lemma lines_concat (t : Text) : lines (t ++ [ascii '\n']) = splitOn [ascii '\n'] t := by
  have hs : splitOn [ascii '\n'] (t ++ [ascii '\n']) = splitOn [ascii '\n'] t ++ [[]] :=
    splitOn_append_cons _ _ _
  simp [lines,hs]

/-- Whether another text may follow without continuing a line. -/
def EndsLine (t : Text) : Prop := t = [] ∨ t.getLast? = some (ascii '\n')

/-- The lines of a text behind one that ends its last line. -/
theorem lines_append {t : Text} (h : t.EndsLine) (u : Text) :
    lines (t ++ u) = t.lines ++ u.lines := by
  rcases h with rfl | h
  · rw [lines_nil,List.nil_append,List.nil_append]
  · obtain ⟨v,rfl⟩ := List.getLast?_eq_some_iff.mp h
    have hne : splitOn [ascii '\n'] u ≠ [] := splitFrom_ne_nil _ _ _
    have hs := splitOn_append_cons (ascii '\n') v u
    rw [lines_concat,List.append_assoc,List.cons_append,List.nil_append]
    simp only [lines,hs,List.getLast?_append_of_ne_nil _ hne]
    split
    · rw [List.dropLast_append_of_ne_nil hne]
    · rfl

lemma join_cons {sep : Text} (p : Text) {ps : List Text} (h : ps ≠ []) :
    join sep (p::ps) = p ++ (sep ++ join sep ps) := by
  obtain ⟨q,ps,rfl⟩ := List.exists_cons_of_ne_nil h
  rw [join,join,List.intercalate_cons_cons,List.append_assoc]

lemma join_consFirst (sep : Text) (b : UInt8) {ps : List Text} (h : ps ≠ []) :
    join sep (consFirst b ps) = b::join sep ps := by
  obtain ⟨p,ps,rfl⟩ := List.exists_cons_of_ne_nil h
  cases ps with
  | nil => simp [consFirst,join]
  | cons q ps => simp [consFirst,join]

lemma join_splitFrom {sep : Text} (hsep : sep ≠ []) {skip : ℕ} {t : Text} (h : skip ≤ t.length) :
    join sep (splitFrom sep skip t) = t.drop skip := by
  induction t generalizing skip with
  | nil => cases skip <;> simp [splitFrom,join]
  | cons b t ih =>
    cases skip with
    | succ skip => exact ih (by simpa using h)
    | zero =>
      rw [splitFrom]
      split
      · rename_i hpre
        obtain ⟨rest,hrest⟩ := List.isPrefixOf_iff_prefix.mp hpre
        obtain ⟨c,sep,rfl⟩ := List.exists_cons_of_ne_nil hsep
        simp only [List.cons_append,List.cons.injEq] at hrest
        obtain ⟨rfl,rfl⟩ := hrest
        rw [join_cons [] (splitFrom_ne_nil _ _ _),ih (by simp)]
        simp
      · rw [join_consFirst _ _ (splitFrom_ne_nil _ _ _),ih (by simp)]
        rfl

/-- The pieces of a text make up the text again. -/
theorem join_splitOn {sep : Text} (h : sep ≠ []) (t : Text) : join sep (splitOn sep t) = t :=
  join_splitFrom h (Nat.zero_le _)

/-- Every piece but the first comes behind a separator. -/
lemma join_eq_flatMap (sep p : Text) (ps : List Text) :
    join sep (p::ps) = p ++ ps.flatMap (sep ++ ·) := by
  induction ps generalizing p with
  | nil => simp [join]
  | cons q ps ih => rw [join_cons p (by simp),ih,List.flatMap_cons,List.append_assoc]

lemma join_append {sep : Text} {ps : List Text} (h : ps ≠ []) (qs : List Text) :
    join sep (ps ++ qs) = join sep ps ++ qs.flatMap (sep ++ ·) := by
  obtain ⟨p,ps,rfl⟩ := List.exists_cons_of_ne_nil h
  rw [List.cons_append,join_eq_flatMap,join_eq_flatMap,List.flatMap_append,List.append_assoc]

section

variable {sep : Text} (hsep : sep ≠ []) {p : Text} (hp : p.Disjoint sep)

include hsep hp

/-- No occurrence of the separator starts inside of a piece, so that the one behind it is found. -/
lemma splitOn_piece_append (t : Text) : splitOn sep (p ++ (sep ++ t)) = p::splitOn sep t := by
  induction p with
  | nil => exact splitOn_append_self hsep t
  | cons b p ih =>
    obtain ⟨hb,hp⟩ := List.disjoint_cons_left.mp hp
    rw [List.cons_append,splitOn_cons_of_not_mem hsep hb,ih hp]
    rfl

lemma splitOn_of_disjoint : splitOn sep p = [p] := by
  induction p with
  | nil => rfl
  | cons b p ih =>
    obtain ⟨hb,hp⟩ := List.disjoint_cons_left.mp hp
    rw [splitOn_cons_of_not_mem hsep hb,ih hp]
    rfl

end

/-- A text without a line feed is one line. -/
lemma lines_of_not_mem {t : Text} (hne : t ≠ []) (h : ascii '\n' ∉ t) : t.lines = [t] := by
  rw [lines,splitOn_of_disjoint (by simp) (List.disjoint_singleton.mpr h)]
  simp [hne]

/-- Pieces that share no byte with the separator are found again. -/
theorem splitOn_join {sep : Text} (hsep : sep ≠ []) {ps : List Text} (hps : ps ≠ [])
    (h : ∀ p ∈ ps, p.Disjoint sep) : splitOn sep (join sep ps) = ps := by
  induction ps with
  | nil => exact absurd rfl hps
  | cons p ps ih =>
    obtain ⟨hp,hrest⟩ := List.forall_mem_cons.mp h
    by_cases hnil : ps = []
    · subst hnil
      have hjoin : join sep [p] = p := by simp [join]
      rw [hjoin,splitOn_of_disjoint hsep hp]
    · rw [join_cons p hnil,splitOn_piece_append hsep hp,ih hnil hrest]

end CellScript.Text
