import Mathlib
import CellScript.Proofs.Shorthand.Scan
import CellScript.Proofs.Shorthand.Spacing

/-! Tokens replaced in place. The code of an expansion has the same texts for the tokens as the
source with its tokens replaced, and other blanks around them. -/
namespace CellScript.Shorthand

open Script (Spot)

/-- A text that stands at an offset with its tokens replaced. What stands between them is kept. -/
def inPlaceFrom (f : Token → Text) : ℕ → Text → List Token → Text
  | _,src,[] => src
  | pos,src,t::ts => src.take (t.pos-pos) ++ (f t ++
      inPlaceFrom f (t.pos+t.lexeme.length) (src.drop (t.pos-pos+t.lexeme.length)) ts)

def inPlace (f : Token → Text) (src : Text) : Text := inPlaceFrom f 0 src (scan src)

lemma Cut.le_pos {pos : ℕ} {before : Option UInt8} {t : Text} {ts : List Token}
    (h : Cut pos before t ts) : ∀ x ∈ ts, pos ≤ x.pos := by
  induction h with
  | nil => simp
  | blank _ _ ih => exact fun x hx => Nat.le_of_succ_le (ih x hx)
  | token _ _ _ ih =>
    intro x hx
    rcases List.mem_cons.mp hx with rfl | hx
    · exact Nat.le_refl _
    · exact le_trans (Nat.le_add_right _ _) (ih x hx)

lemma inPlaceFrom_blank {f : Token → Text} {pos : ℕ} {ts : List Token}
    (h : ∀ x ∈ ts, pos+1 ≤ x.pos) (b : UInt8) (t : Text) :
    inPlaceFrom f pos (b::t) ts = b::inPlaceFrom f (pos+1) t ts := by
  cases ts with
  | nil => rfl
  | cons x ts =>
    have hx := h x (by simp)
    have htake : x.pos-pos = (x.pos-(pos+1))+1 := by omega
    have hdrop : x.pos-pos+x.lexeme.length = (x.pos-(pos+1)+x.lexeme.length)+1 := by omega
    rw [inPlaceFrom,inPlaceFrom,hdrop,htake,List.take_succ_cons,List.drop_succ_cons]
    rfl

lemma inPlaceFrom_token (f : Token → Text) (pos : ℕ) (k : Kind) (w t : Text) (ts : List Token) :
    inPlaceFrom f pos (w ++ t) (⟨k,w,pos⟩::ts) =
      f ⟨k,w,pos⟩ ++ inPlaceFrom f (pos+w.length) t ts := by
  simp [inPlaceFrom]

lemma Cut.inPlaceFrom_lexeme {pos : ℕ} {before : Option UInt8} {t : Text} {ts : List Token}
    (h : Cut pos before t ts) : inPlaceFrom Token.lexeme pos t ts = t := by
  induction h with
  | nil => rfl
  | blank _ hc ih => rw [inPlaceFrom_blank hc.le_pos,ih]
  | token _ _ _ ih => rw [inPlaceFrom_token,ih]

/-- A text that may be written as it is from a place on: it has no blanks among its code unless they
are kept, and then none at its end. -/
def Solid (keep : Prop) : Spot → Text → Prop
  | _,[] => True
  | s,b::t => (s = .code → Text.isBlank b = false ∨ keep ∧ t ≠ []) ∧ Solid keep (s.step b) t

lemma Respaced.walk {keep : Prop} {last : Option UInt8} {gap : Bool} {s : Spot} {w t u : Text}
    (hw : Solid keep s w) (hne : w ≠ []) (hgap : gap = true → last = none)
    (h : Respaced keep w.getLast? false (s.after w) t u) :
    Respaced keep last gap s (w ++ t) (w ++ u) := by
  induction w generalizing last gap s with
  | nil => exact absurd rfl hne
  | cons b w ih =>
    have hnext : ∀ {last' : Option UInt8} {gap' : Bool}, (gap' = true → last' = none) →
        (w = [] → last' = some b ∧ gap' = false) →
        Respaced keep last' gap' (s.step b) (w ++ t) (w ++ u) := by
      intro last' gap' hg' hnil
      cases w with
      | nil =>
        obtain ⟨rfl,rfl⟩ := hnil rfl
        exact h
      | cons c w =>
        refine ih hw.2 (by simp) hg' ?_
        rwa [List.getLast?_cons_cons] at h
    by_cases hs : s = .code
    · subst hs
      rcases hw.1 rfl with hb | ⟨hk,hwne⟩
      · refine .byte hb ?_ (hnext (by simp) (fun _ => ⟨rfl,rfl⟩))
        intro hg
        rw [hgap hg]
        rfl
      · by_cases hb : Text.isBlank b = true
        · refine .kept hk hb ?_
          have hstep : Spot.code.step b = .code := Spot.step_code (Script.not_isQuote_of_isBlank hb)
          have hn := @hnext none true (fun _ => rfl) (fun hw => absurd hw hwne)
          rwa [hstep] at hn
        · refine .byte (by simpa using hb) ?_ (hnext (by simp) (fun _ => ⟨rfl,rfl⟩))
          intro hg
          rw [hgap hg]
          rfl
    · exact .inside hs (hnext (by simp) (fun _ => ⟨rfl,rfl⟩))

lemma Run.solid {start : Bool} {before : Option UInt8} {s : Spot} {w rest : Text}
    (h : Run start before s w rest) (keep : Prop) : Solid keep s w := by
  induction h with
  | ended => trivial
  | stop => trivial
  | inside hs _ ih => exact ⟨fun h => absurd h hs,ih⟩
  | byte hb _ _ ih => exact ⟨fun _ => Or.inl hb,ih⟩

/-- A run ends among code or with the source. -/
lemma Run.after {start : Bool} {before : Option UInt8} {s : Spot} {w rest : Text}
    (h : Run start before s w rest) (hr : rest ≠ []) : s.after w = .code := by
  induction h with
  | ended => exact absurd rfl hr
  | stop => rfl
  | inside _ _ ih => exact ih hr
  | byte _ _ _ ih => exact ih hr

/-- A run ends in front of a blank or another token. -/
lemma Run.boundary {start : Bool} {before : Option UInt8} {s : Spot} {w rest : Text}
    (h : Run start before s w rest) (hw : start = false ∨ w ≠ []) :
    ∀ b ∈ rest.head?, Text.isBlank b = true ∨
      (token? (w.getLast?.or before) rest).isSome = true := by
  have hlast : ∀ (b : UInt8) (w : Text), (b::w).getLast? = w.getLast?.or (some b) := by
    intro b w
    rw [List.getLast?_cons]
    cases w.getLast? <;> rfl
  induction h with
  | ended => simp
  | stop h =>
    intro b hb
    simp only [List.head?_cons,Option.mem_def,Option.some.injEq] at hb
    subst hb
    rcases h with h | ⟨-,h⟩
    · exact Or.inl h
    · exact Or.inr h
  | @inside _ _ _ b w _ _ _ ih =>
    rw [hlast]
    simpa using ih (Or.inl rfl)
  | @byte _ _ b w _ _ _ _ ih =>
    rw [hlast]
    simpa using ih (Or.inl rfl)

lemma not_sticks_of_isBlank {b : UInt8} (h : Text.isBlank b = true) : sticks b = false := by
  simp only [Text.isBlank,Bool.or_eq_true,beq_iff_eq,or_assoc] at h
  rcases h with rfl | rfl | rfl | rfl <;> rfl

lemma not_sticks_of_mem : ∀ b ∈ operatorBytes, sticks b = false ∧ Text.isBlank b = false ∧
    Text.isQuote b = false := by
  decide +kernel

/-- Behind a byte that sticks, and that is no quote, nothing follows that sticks as well. -/
def Guarded (last : Option UInt8) (gap : Bool) (rest : Text) : Prop :=
  gap = false → ∀ a ∈ last, sticks a = true → Text.isQuote a = true ∨
    ∀ b ∈ rest.head?, sticks b = false

lemma Run.guarded {before : Option UInt8} {w rest : Text} (h : Run true before .code w rest)
    (hne : w ≠ []) : Guarded w.getLast? false rest := by
  intro _ a ha hs
  by_cases hq : Text.isQuote a = true
  · exact Or.inl hq
  right
  have hword : Text.isWord a = true := by simpa [sticks,hq] using hs
  intro b hb
  rcases h.boundary (Or.inr hne) b hb with hblank | htok
  · exact not_sticks_of_isBlank hblank
  · rw [Option.mem_def.mp ha,Option.some_or] at htok
    obtain ⟨⟨k,n⟩,hkn⟩ := Option.isSome_iff_exists.mp htok
    rcases token?_eq_some hkn with ⟨ho,-⟩ | ho
    · simp [opensAfter,hword] at ho
    · obtain ⟨v,_,rfl,-,hvne,hv,-⟩ := operator?_eq_some ho
      obtain ⟨c,v,rfl⟩ := List.exists_cons_of_ne_nil hvne
      simp only [List.cons_append,List.head?_cons,Option.mem_def,Option.some.injEq] at hb
      subst hb
      exact (not_sticks_of_mem c (hv c (by simp))).1

/-- What stands for a token: its own text, or for an accessor a text that starts with a word byte,
ends with none, and has all of its literals closed. -/
structure Stands (keep : Prop) (f : Token → Text) (t : Token) : Prop where
  same : t.kind.isAccessor = false → f t = t.lexeme
  keep : t.kind.isAccessor = true → keep
  closed : t.kind.isAccessor = true → Spot.code.after (f t) = .code
  first : t.kind.isAccessor = true → ∃ b ∈ (f t).head?, Text.isWord b = true
  last : t.kind.isAccessor = true → ∃ b ∈ (f t).getLast?, sticks b = false ∧
    Text.isBlank b = false

lemma solid_of_keep {keep : Prop} (hk : keep) {w : Text}
    (hw : ∀ b ∈ w.getLast?, Text.isBlank b = false) (s : Spot) : Solid keep s w := by
  induction w generalizing s with
  | nil => trivial
  | cons b w ih =>
    cases w with
    | nil => exact ⟨fun _ => Or.inl (hw b rfl),trivial⟩
    | cons c w =>
      refine ⟨fun _ => Or.inr ⟨hk,by simp⟩,ih ?_ _⟩
      rwa [List.getLast?_cons_cons] at hw

lemma solid_of_operator {keep : Prop} {w : Text} (hw : ∀ b ∈ w, b ∈ operatorBytes) :
    Solid keep .code w := by
  induction w with
  | nil => trivial
  | cons b w ih =>
    obtain ⟨-,hb,hq⟩ := not_sticks_of_mem b (hw b (by simp))
    refine ⟨fun _ => Or.inl hb,?_⟩
    rw [Spot.step_code hq]
    exact ih fun c hc => hw c (by simp [hc])

/-- What can be said of the text that stands for a token. -/
structure Piece.Written (keep : Prop) (w rest x : Text) : Prop where
  solid : Solid keep .code x
  head : ∃ b ∈ x.head?, Text.isBlank b = false ∧ (sticks b = true → ∃ c ∈ w.head?, sticks c = true)
  after : rest ≠ [] → Spot.code.after x = .code
  guarded : Guarded x.getLast? false rest

lemma sticks_of_isCastLetter {c : UInt8} (h : isCastLetter c = true) : sticks c = true := by
  simp only [isCastLetter,Bool.or_eq_true,beq_iff_eq] at h
  rcases h with ((rfl | rfl) | rfl) | rfl <;> rfl

lemma not_isBlank_of_isWord {b : UInt8} (h : Text.isWord b = true) : Text.isBlank b = false := by
  by_contra hb
  have hs := not_sticks_of_isBlank (by simpa using hb)
  simp [sticks,h] at hs

lemma Piece.written {keep : Prop} {f : Token → Text} {pos : ℕ} {before : Option UInt8} {k : Kind}
    {w rest : Text} (h : Piece before k w rest) (hb : ∀ b ∈ w.head?, Text.isBlank b = false)
    (hf : Stands keep f ⟨k,w,pos⟩) : Piece.Written keep w rest (f ⟨k,w,pos⟩) := by
  cases h with
  | @accessor c _ body _ ho hc hbody hk =>
    have hacc := isAccessor_of_bodyKind? hk
    obtain ⟨a,ha,has⟩ := hf.first hacc
    obtain ⟨z,hz,hzs,hzb⟩ := hf.last hacc
    refine ⟨solid_of_keep (hf.keep hacc) ?_ _,⟨a,ha,not_isBlank_of_isWord has,?_⟩,
      fun _ => hf.closed hacc,?_⟩
    · intro b hb
      rwa [Option.mem_unique hb hz]
    · exact fun _ => ⟨c,rfl,sticks_of_isCastLetter hc⟩
    · intro _ b hb hs
      rw [Option.mem_unique hb hz,hzs] at hs
      simp at hs
  | operator h =>
    obtain ⟨v,u,hv,hlen,hne,hall,hacc⟩ := operator?_eq_some h
    obtain ⟨rfl,rfl⟩ := List.append_inj hv hlen
    rw [hf.same hacc]
    obtain ⟨b,w,rfl⟩ := List.exists_cons_of_ne_nil hne
    refine ⟨solid_of_operator hall,⟨b,rfl,hb b rfl,fun hs => ⟨b,rfl,hs⟩⟩,?_,?_⟩
    · exact fun _ => Spot.after_code fun x hx => (not_sticks_of_mem x (hall x hx)).2.2
    · intro _ x hx hs
      rw [(not_sticks_of_mem x (hall x (List.mem_of_getLast? hx))).1] at hs
      simp at hs
  | run hne ht hr =>
    rw [hf.same rfl]
    refine ⟨hr.solid keep,?_,fun hrest => hr.after hrest,hr.guarded hne⟩
    obtain ⟨b,w,rfl⟩ := List.exists_cons_of_ne_nil hne
    exact ⟨b,rfl,hb b rfl,fun hs => ⟨b,rfl,hs⟩⟩

lemma glueFrom_cons {last : Option UInt8} {w : Text} (hw : w ≠ []) (ws : List Text) :
    glueFrom last (w::ws) = joint last w ++ (w ++ glueFrom w.getLast? ws) := by
  obtain ⟨b,w,rfl⟩ := List.exists_cons_of_ne_nil hw
  rw [glueFrom,List.getLast?_cons]
  rfl

/-- The glued tokens are the source with its tokens replaced, with other blanks. -/
theorem Cut.respaced {keep : Prop} {f : Token → Text} {pos : ℕ} {before : Option UInt8} {t : Text}
    {ts : List Token} (h : Cut pos before t ts) (hf : ∀ x ∈ ts, Stands keep f x)
    {last : Option UInt8} {gap : Bool} (hg : Guarded last gap t) :
    Respaced keep last gap .code (inPlaceFrom f pos t ts) (glueFrom last (ts.map f)) := by
  induction h generalizing last gap with
  | nil => exact .nil
  | @blank pos before b t ts hb hc ih =>
    rw [inPlaceFrom_blank hc.le_pos]
    exact .dropped hb (ih hf (by simp [Guarded]))
  | @token pos before k w t ts hb hp hc ih =>
    have hw := hp.written hb (hf ⟨k,w,pos⟩ (by simp))
    rw [inPlaceFrom_token,List.map_cons]
    generalize f ⟨k,w,pos⟩ = x at hw
    obtain ⟨b,hbx,hbb,hbs⟩ := hw.head
    obtain ⟨x,rfl⟩ := List.head?_eq_some_iff.mp hbx
    rw [glueFrom_cons (by simp)]
    have hrest : Respaced keep (b::x).getLast? false (Spot.code.after (b::x))
        (inPlaceFrom f (pos+w.length) t ts) (glueFrom (b::x).getLast? (ts.map f)) := by
      by_cases ht : t = []
      · subst ht
        rw [show ts = [] from hc.scanFrom_eq.symm]
        exact .nil
      · rw [hw.after ht]
        exact ih (fun y hy => hf y (by simp [hy])) hw.guarded
    have htail : Respaced keep (some b) false (Spot.code.step b)
        (x ++ inPlaceFrom f (pos+w.length) t ts)
        (x ++ glueFrom (b::x).getLast? (ts.map f)) := by
      cases x with
      | nil => exact hrest
      | cons c x =>
        rw [List.getLast?_cons_cons] at hrest ⊢
        exact .walk hw.solid.2 (by simp) (by simp) hrest
    by_cases hs : sticky last (some b) = true
    · rw [joint,List.head?_cons,if_pos hs]
      refine .spaced hbb hs ?_ htail
      -- without blanks between them, only a quote in front makes two tokens stick
      cases last with
      | none => simp [sticky] at hs
      | some a =>
        simp only [sticky,Bool.and_eq_true] at hs
        cases gap with
        | true => exact Or.inl rfl
        | false =>
          right
          rcases hg rfl a rfl hs.1 with hq | hn
          · exact ⟨a,rfl,hq⟩
          · obtain ⟨c,hc,hcs⟩ := hbs hs.2
            rw [hn c ?_] at hcs
            · simp at hcs
            · rw [List.head?_append_of_ne_nil _ hp.ne_nil]
              exact hc
    · rw [joint,List.head?_cons,if_neg hs]
      exact .byte hbb (fun _ => by simpa using hs) htail

end CellScript.Shorthand
