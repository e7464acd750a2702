import Mathlib
import CellScript.Proofs.Shorthand.Context

/-! The tokens of a source as a partition of it. They stand one behind the other with nothing but
blanks around them, and a run of script text hides no other token outside of its literals. -/
namespace CellScript.Shorthand

open Script (Spot)

/-- The token other than script text that starts at an offset of a source. -/
def tokenAt? (src : Text) (i : ℕ) : Option (Kind × ℕ) :=
  token? (src.take i).getLast? (src.drop i)

def Kind.signs : Kind → List Text
  | separator => [";"]
  | assignment => ["=","+=","-=","*=","/="]
  | passthrough => ["==","!=","<=",">="]
  | accessor | ambiguous | append => []

namespace Token

def stop (t : Token) : ℕ := t.pos+t.lexeme.length

/-- A run of script text: a token that passes through and is no comparison. -/
def IsRun (t : Token) : Prop := t.kind = .passthrough ∧ t.lexeme ∉ Kind.passthrough.signs

end Token

/-- Tokens that partition a source. -/
structure Partition (src : Text) (ts : List Token) : Prop where
  nonempty : ∀ t ∈ ts, t.lexeme ≠ []
  slice : ∀ t ∈ ts, (src.drop t.pos).take t.lexeme.length = t.lexeme
  ordered : ts.Pairwise fun t u => t.pos < u.pos ∧ t.stop ≤ u.pos
  /-- What belongs to no token is blank. -/
  blank : ∀ i b, src[i]? = some b → (∀ t ∈ ts, ¬ (t.pos ≤ i ∧ i < t.stop)) → Text.isBlank b = true
  /-- A run hides no other token outside of the literals in it. -/
  plain : ∀ t ∈ ts, t.IsRun → ∀ i < t.lexeme.length,
    Spot.code.after (t.lexeme.take i) = .code → tokenAt? src (t.pos+i) = none
  /-- A run goes up to a blank, another token or the end of the source. -/
  maximal : ∀ t ∈ ts, t.IsRun → ∀ b, src[t.stop]? = some b →
    Text.isBlank b = true ∨ (tokenAt? src t.stop).isSome = true
  /-- Every other token is the one that starts at its place. -/
  found : ∀ t ∈ ts, ¬ t.IsRun → tokenAt? src t.pos = some (t.kind,t.lexeme.length)

/-- A token that stands between two parts of a source. -/
structure Token.Between (t : Token) (src p r : Text) : Prop where
  split : src = p ++ (t.lexeme ++ r)
  pos : t.pos = p.length
  piece : Piece p.getLast? t.kind t.lexeme r

/-- Every token of a text that stands behind another one has its place between two parts of the
two. -/
lemma Cut.between {pos : ℕ} {before : Option UInt8} {t : Text} {ts : List Token}
    (h : Cut pos before t ts) {front : Text} (hpos : pos = front.length)
    (hbefore : before = front.getLast?) : ∀ x ∈ ts, ∃ p r, x.Between (front ++ t) p r := by
  induction h generalizing front with
  | nil => simp
  | @blank pos before b t ts _ _ ih =>
    intro x hx
    have hfront := @ih (front ++ [b]) (by simp [hpos]) (by simp) x hx
    rwa [List.append_assoc] at hfront
  | @token pos before k w t ts _ hp _ ih =>
    intro x hx
    rcases List.mem_cons.mp hx with rfl | hx
    · subst hpos hbefore
      exact ⟨front,t,rfl,rfl,hp⟩
    · have hlast : w.getLast? = (front ++ w).getLast? :=
        (List.getLast?_append_of_ne_nil front hp.ne_nil).symm
      have hfront := @ih (front ++ w) (by simp [hpos]) hlast x hx
      rwa [List.append_assoc] at hfront

lemma exists_between {src : Text} {t : Token} (h : t ∈ scan src) : ∃ p r, t.Between src p r := by
  rw [← List.nil_append src]
  exact (cut_scan src).between rfl rfl t h

/-- Tokens stand one behind the other. -/
lemma Cut.ordered {pos : ℕ} {before : Option UInt8} {t : Text} {ts : List Token}
    (h : Cut pos before t ts) : ts.Pairwise fun t u => t.pos < u.pos ∧ t.stop ≤ u.pos := by
  induction h with
  | nil => exact .nil
  | blank _ _ ih => exact ih
  | @token pos before k w t ts _ hp hc ih =>
    apply List.Pairwise.cons _ ih
    intro u hu
    have hle := hc.le_pos u hu
    have hlen := List.length_pos_of_ne_nil hp.ne_nil
    simp only [Token.stop]
    omega

/-- What belongs to no token is blank. -/
lemma Cut.isBlank_of_outside {pos : ℕ} {before : Option UInt8} {t : Text} {ts : List Token}
    (h : Cut pos before t ts) {i : ℕ} {b : UInt8} (hb : t[i]? = some b)
    (ho : ∀ x ∈ ts, ¬ (x.pos ≤ pos+i ∧ pos+i < x.stop)) : Text.isBlank b = true := by
  induction h generalizing i with
  | nil => simp at hb
  | blank hblank _ ih =>
    cases i with
    | zero =>
      simp only [List.getElem?_cons_zero,Option.some.injEq] at hb
      rwa [← hb]
    | succ i =>
      apply ih hb
      intro x hx
      rw [Nat.add_right_comm,Nat.add_assoc]
      exact ho x hx
  | @token pos before k w t ts _ _ _ ih =>
    -- an offset in the token itself is no offset outside of all tokens
    have hself := ho ⟨k,w,pos⟩ (by simp)
    have hw : w.length ≤ i := by
      simp only [Token.stop] at hself
      omega
    rw [List.getElem?_append_right hw] at hb
    apply ih hb
    intro x hx
    rw [show pos+w.length+(i-w.length) = pos+i by omega]
    exact ho x (by simp [hx])

/-- Outside of its literals, and apart from its start, a run meets no other token. -/
lemma Run.token?_eq_none {start : Bool} {before : Option UInt8} {s : Spot} {w rest : Text}
    (h : Run start before s w rest) {u v : Text} (hw : w = u ++ v) (hv : v ≠ [])
    (hs : s.after u = .code) (hu : start = false ∨ u ≠ []) :
    token? (u.getLast?.or before) (v ++ rest) = none := by
  induction h generalizing u with
  | ended | stop =>
    exfalso
    exact hv (List.append_eq_nil_iff.mp hw.symm).2
  | @inside start before s b w rest hcode _ ih =>
    cases u with
    | nil => exact absurd hs hcode
    | cons c u =>
      obtain ⟨rfl,rfl⟩ := List.cons.inj hw
      rw [getLast?_cons_or]
      exact ih rfl hs (Or.inl rfl)
  | @byte start before b w rest _ hnone _ ih =>
    cases u with
    | nil =>
      rw [List.nil_append] at hw
      rw [← hw]
      rcases hnone with rfl | hnone
      · simp at hu
      · exact hnone
    | cons c u =>
      obtain ⟨rfl,rfl⟩ := List.cons.inj hw
      rw [getLast?_cons_or]
      exact ih rfl hs (Or.inl rfl)

/-- An operator or a separator is one of the signs of its kind. -/
lemma mem_signs {k : Kind} {w rest : Text} (h : operator? (w ++ rest) = some (k,w.length)) :
    w ∈ k.signs := by
  obtain ⟨v,-,-,hlen,hne,-⟩ := operator?_eq_some h
  have hpos := List.length_pos_of_ne_nil hne
  obtain ⟨a,w,rfl⟩ := List.exists_cons_of_length_pos (hlen ▸ hpos)
  have hone : 1 = (a::w).length → w = [] := by
    intro hl
    apply List.length_eq_zero_iff.mp
    simpa using hl.symm
  have htwo : ((w ++ rest).head? == some (Text.ascii '=')) = true → 2 = (a::w).length →
      w = [Text.ascii '='] := by
    intro he hl
    obtain ⟨b,rfl⟩ := List.length_eq_one_iff.mp (show w.length = 1 by simpa using hl.symm)
    simpa using he
  simp only [List.cons_append,operator?] at h
  split_ifs at h with h1 h2 h3 h4 <;> obtain ⟨rfl,hl⟩ := Prod.mk.inj (Option.some.inj h)
  · rw [hone hl,beq_iff_eq.mp h1]
    decide
  · simp only [Bool.and_eq_true,Bool.or_eq_true,@beq_iff_eq UInt8] at h2
    rw [htwo h2.1 hl]
    rcases h2.2 with ((rfl | rfl) | rfl) | rfl <;> decide
  · rw [hone hl,beq_iff_eq.mp h3]
    decide
  · simp only [Bool.and_eq_true,Bool.or_eq_true,@beq_iff_eq UInt8] at h4
    rw [htwo h4.1 hl]
    rcases h4.2 with ((rfl | rfl) | rfl) | rfl <;> decide

lemma operator?_comparison {w : Text} (h : w ∈ Kind.passthrough.signs) (rest : Text) :
    operator? (w ++ rest) = some (.passthrough,w.length) := by
  simp only [Kind.signs,List.mem_cons,List.not_mem_nil,or_false] at h
  rcases h with rfl | rfl | rfl | rfl <;> rfl

namespace Token.Between

variable {t : Token} {src p r : Text}

lemma take_pos (h : t.Between src p r) : src.take t.pos = p := by
  rw [h.split,h.pos,List.take_left]

lemma drop_pos (h : t.Between src p r) : src.drop t.pos = t.lexeme ++ r := by
  rw [h.split,h.pos,List.drop_left]

/-- The token at an offset in a token or right behind it. -/
lemma tokenAt?_eq (h : t.Between src p r) {u v : Text} (hu : t.lexeme = u ++ v) :
    tokenAt? src (t.pos+u.length) = token? (u.getLast?.or p.getLast?) (v ++ r) := by
  have hsplit : src = (p ++ u) ++ (v ++ r) := by
    rw [h.split,hu]
    simp only [List.append_assoc]
  have hlen : t.pos+u.length = (p ++ u).length := by rw [h.pos,List.length_append]
  rw [tokenAt?,hlen,hsplit,List.take_left,List.drop_left,List.getLast?_append]

lemma tokenAt?_pos (h : t.Between src p r) :
    tokenAt? src t.pos = token? p.getLast? (t.lexeme ++ r) := by
  rw [tokenAt?,h.take_pos,h.drop_pos]

/-- A run is no accessor and no operator. -/
lemma run (h : t.Between src p r) (ht : t.IsRun) :
    token? p.getLast? (t.lexeme ++ r) = none ∧ Run true p.getLast? .code t.lexeme r := by
  obtain ⟨hk,hsign⟩ := ht
  have hp := h.piece
  generalize t.lexeme = w at hp hsign
  rw [hk] at hp
  cases hp with
  | accessor _ _ _ hbody => exact absurd (isAccessor_of_bodyKind? hbody) Bool.false_ne_true
  | operator ho => exact absurd (mem_signs ho) hsign
  | run _ hnone hr => exact ⟨hnone,hr⟩

lemma plain (h : t.Between src p r) (ht : t.IsRun) {i : ℕ} (hi : i < t.lexeme.length)
    (hs : Spot.code.after (t.lexeme.take i) = .code) : tokenAt? src (t.pos+i) = none := by
  obtain ⟨hnone,hr⟩ := h.run ht
  have hlen : (t.lexeme.take i).length = i := by simp [hi.le]
  have hat := h.tokenAt?_eq (List.take_append_drop i t.lexeme).symm
  rw [hlen] at hat
  rw [hat]
  by_cases hzero : i = 0
  · subst hzero
    simpa using hnone
  · apply hr.token?_eq_none (List.take_append_drop i t.lexeme).symm _ hs
    · right
      apply List.ne_nil_of_length_pos
      omega
    · apply List.ne_nil_of_length_pos
      rw [List.length_drop]
      omega

lemma maximal (h : t.Between src p r) (ht : t.IsRun) {b : UInt8} (hb : src[t.stop]? = some b) :
    Text.isBlank b = true ∨ (tokenAt? src t.stop).isSome = true := by
  have hat := h.tokenAt?_eq (List.append_nil t.lexeme).symm
  have hhead : r.head? = some b := by
    rw [h.split,← List.append_assoc,Token.stop,h.pos,← List.length_append,
      List.getElem?_append_right (Nat.le_refl _),Nat.sub_self] at hb
    rwa [List.head?_eq_getElem?]
  rw [Token.stop,hat]
  exact (h.run ht).2.boundary (Or.inr h.piece.ne_nil) b hhead

/-- An accessor, an operator or a separator is found where it stands. -/
lemma found (h : t.Between src p r) (ht : ¬ t.IsRun) :
    tokenAt? src t.pos = some (t.kind,t.lexeme.length) := by
  rw [h.tokenAt?_pos]
  have hp := h.piece
  generalize hk : t.kind = k at hp
  generalize hw : t.lexeme = w at hp
  cases hp with
  | @accessor c k body rest ho hc hbracket hbody =>
    apply token?_of_accessor ho
    apply accessor?_eq_some_iff.mpr
    exact ⟨c,body,r,by simp,hc,hbracket,hbody,by simp⟩
  | operator ho => exact token?_of_operator ho
  | run _ hnone _ =>
    exfalso
    apply ht
    refine ⟨hk,fun hsign => ?_⟩
    rw [hw] at hsign
    rw [token?_of_operator (operator?_comparison hsign r)] at hnone
    simp at hnone

end Token.Between

/-- The tokens of a source partition it. -/
theorem scan_partition (src : Text) : Partition src (scan src) where
  nonempty t ht := by
    obtain ⟨p,r,h⟩ := exists_between ht
    exact h.piece.ne_nil
  slice t ht := by
    obtain ⟨p,r,h⟩ := exists_between ht
    rw [h.drop_pos,List.take_left]
  ordered := (cut_scan src).ordered
  blank i b hb ho := by
    apply (cut_scan src).isBlank_of_outside hb
    simpa using ho
  plain t ht hrun i hi hs := by
    obtain ⟨p,r,h⟩ := exists_between ht
    exact h.plain hrun hi hs
  maximal t ht hrun b hb := by
    obtain ⟨p,r,h⟩ := exists_between ht
    exact h.maximal hrun hb
  found t ht hrun := by
    obtain ⟨p,r,h⟩ := exists_between ht
    exact h.found hrun

end CellScript.Shorthand
