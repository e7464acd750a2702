import Mathlib
import CellScript.Proofs.Shorthand.InPlace

/-! Tokens in front of a separator. A text with its brackets closed is cut in front of a separator
as it is cut on its own. -/
namespace CellScript.Shorthand

open Script (Spot)

/-- What may stand behind a statement: nothing, or a separator. -/
def Ends (ext : Text) : Prop := ∀ b ∈ ext.head?, b = Text.ascii ';'

lemma Ends.head_ne {ext : Text} (h : Ends ext) {b : UInt8} (hb : b ≠ Text.ascii ';') :
    ext.head? ≠ some b := by
  intro he
  exact hb (h b he)

/-- A text that makes no token in front of it longer: it starts neither with an equals sign nor with
an opening bracket. -/
structure Neutral (ext : Text) : Prop where
  equals : ext.head? ≠ some (Text.ascii '=')
  bracket : ext.head? ≠ some (Text.ascii '[')

lemma Ends.neutral {ext : Text} (h : Ends ext) : Neutral ext :=
  ⟨h.head_ne (by decide),h.head_ne (by decide)⟩

lemma operator?_append {t ext : Text} (ht : t ≠ []) (he : Neutral ext) :
    operator? (t ++ ext) = operator? t := by
  obtain ⟨a,t,rfl⟩ := List.exists_cons_of_ne_nil ht
  have hnext : ((t ++ ext).head? == some (Text.ascii '=')) =
      (t.head? == some (Text.ascii '=')) := by
    cases t with
    | nil =>
      have hne := he.equals
      rw [List.nil_append,List.head?_nil]
      simpa using hne
    | cons b t => rfl
  simp only [List.cons_append,operator?,hnext]

lemma getLast?_cons_or (b : UInt8) (w : Text) (before : Option UInt8) :
    (b::w).getLast?.or before = w.getLast?.or (some b) := by
  rw [List.getLast?_cons]
  cases w.getLast? <;> rfl

lemma getLast?_append_or {w : Text} (hw : w ≠ []) (t : Text) (before : Option UInt8) :
    (w ++ t).getLast?.or before = t.getLast?.or w.getLast? := by
  obtain ⟨b,w,rfl⟩ := List.exists_cons_of_ne_nil hw
  rw [List.getLast?_append,List.getLast?_cons]
  cases t.getLast? <;> rfl

lemma operator?_of_ends {ext : Text} (he : Ends ext) (hne : ext ≠ []) :
    operator? ext = some (.separator,1) := by
  obtain ⟨b,ext,rfl⟩ := List.exists_cons_of_ne_nil hne
  rw [he b rfl]
  rfl

lemma accessor?_append {t ext : Text} (ht : t ≠ []) (he : Neutral ext)
    (hc : ∀ c u, t = c::Text.ascii '['::u → isCastLetter c = true → Text.ascii ']' ∈ u) :
    accessor? (t ++ ext) = accessor? t := by
  have hsome : ∀ k n, accessor? t = some (k,n) → accessor? (t ++ ext) = some (k,n) := by
    intro k n h
    obtain ⟨c,body,rest,rfl,hcast,hbody,hk,rfl⟩ := accessor?_eq_some_iff.mp h
    exact accessor?_eq_some_iff.mpr ⟨c,body,rest ++ ext,by simp,hcast,hbody,hk,rfl⟩
  cases h : accessor? t with
  | some found => exact hsome found.1 found.2 h
  | none =>
    cases h' : accessor? (t ++ ext) with
    | none => rfl
    | some found =>
      obtain ⟨k,n⟩ := found
      obtain ⟨c,body,rest,hx,hcast,hbody,hk,rfl⟩ := accessor?_eq_some_iff.mp h'
      exfalso
      match t,ht with
      | [a],_ =>
        have hne := he.bracket
        rw [List.cons_append,List.nil_append,List.cons.injEq] at hx
        rw [hx.2] at hne
        exact hne rfl
      | a::b::u,_ =>
        rw [List.cons_append,List.cons_append,List.cons.injEq,List.cons.injEq] at hx
        obtain ⟨rfl,rfl,hu⟩ := hx
        obtain ⟨v,w,rfl,hv⟩ := List.eq_append_cons_of_mem (hc a u rfl hcast)
        have hvb := congrArg (List.takeWhile (· != Text.ascii ']')) hu
        rw [List.append_assoc,List.cons_append,takeWhile_bracket hv,takeWhile_bracket hbody] at hvb
        subst hvb
        have hfound : accessor? (a::Text.ascii '['::(v ++ Text.ascii ']'::w)) =
            some (k,v.length+3) :=
          accessor?_eq_some_iff.mpr ⟨a,v,w,rfl,hcast,hv,hk,rfl⟩
        rw [hfound] at h
        simp at h

lemma token?_append (before : Option UInt8) {t ext : Text} (ht : t ≠ []) (he : Neutral ext)
    (hc : ∀ c u, t = c::Text.ascii '['::u → isCastLetter c = true → Text.ascii ']' ∈ u) :
    token? before (t ++ ext) = token? before t := by
  simp only [token?,accessor?_append ht he hc,operator?_append ht he]

lemma not_isQuote_of_isCastLetter {c : UInt8} (h : isCastLetter c = true) :
    Text.isQuote c = false := by
  simp only [isCastLetter,Bool.or_eq_true,beq_iff_eq] at h
  rcases h with ((rfl | rfl) | rfl) | rfl <;> rfl

/-- A run in which every accessor that is begun has its closing bracket. -/
def Shut (s : Spot) (w rest : Text) : Prop :=
  ∀ p c u, w = p ++ c::Text.ascii '['::u → s.after p = .code → isCastLetter c = true →
    Text.ascii ']' ∈ u ++ rest

lemma Shut.tail {s : Spot} {b : UInt8} {w rest : Text} (h : Shut s (b::w) rest) :
    Shut (s.step b) w rest := by
  intro p c u hw hp hc
  exact h (b::p) c u (by rw [hw]; rfl) hp hc

lemma Shut.head {w rest : Text} (h : Shut .code w rest)
    (hr : ∀ b ∈ rest.head?, b ≠ Text.ascii '[') (hw : w ≠ []) :
    ∀ c u, w ++ rest = c::Text.ascii '['::u → isCastLetter c = true → Text.ascii ']' ∈ u := by
  intro c u hu hc
  match w,hw with
  | [a],_ =>
    rw [List.cons_append,List.nil_append,List.cons.injEq] at hu
    rw [hu.2] at hr
    exact absurd rfl (hr _ rfl)
  | a::b::w,_ =>
    rw [List.cons_append,List.cons_append,List.cons.injEq,List.cons.injEq] at hu
    obtain ⟨rfl,rfl,rfl⟩ := hu
    exact h [] a w rfl rfl hc

/-- A run with something behind it goes no further when more follows. -/
lemma Run.append_rest {start : Bool} {before : Option UInt8} {s : Spot} {w rest ext : Text}
    (h : Run start before s w rest) (hrest : rest ≠ []) (he : Neutral ext) (hs : Shut s w rest)
    (hr : ∀ b ∈ rest.head?, b ≠ Text.ascii '[') : Run start before s w (rest ++ ext) := by
  induction h with
  | ended => exact absurd rfl hrest
  | @stop start before b rest h =>
    rw [List.cons_append]
    refine .stop ?_
    rcases h with h | ⟨hstart,h⟩
    · exact Or.inl h
    · refine Or.inr ⟨hstart,?_⟩
      obtain ⟨⟨k,n⟩,hk⟩ := Option.isSome_iff_exists.mp h
      rcases token?_eq_some hk with ⟨ho,ha⟩ | ho
      · obtain ⟨c,body,u,hu,hcast,hbody,hkind,rfl⟩ := accessor?_eq_some_iff.mp ha
        have ha' : accessor? (b::rest ++ ext) = some (k,body.length+3) :=
          accessor?_eq_some_iff.mpr ⟨c,body,u ++ ext,by rw [hu]; simp,hcast,hbody,hkind,rfl⟩
        rw [← List.cons_append,token?_of_accessor ho ha']
        rfl
      · rw [← List.cons_append,token?_of_operator ((operator?_append (by simp) he).trans ho)]
        rfl
  | inside hcode _ ih => exact .inside hcode (ih hrest hs.tail hr)
  | @byte start before b w rest hb hn _ ih =>
    refine .byte hb ?_ (ih hrest hs.tail hr)
    rcases hn with hn | hn
    · exact Or.inl hn
    · right
      have happ := token?_append before (t := b::w ++ rest) (by simp) he (hs.head hr (by simp))
      rw [← List.cons_append,← List.append_assoc,happ]
      exact hn

/-- A run that ended with the source goes on with what follows. -/
lemma Run.goes_on {start : Bool} {before : Option UInt8} {s : Spot} {w x ext : Text}
    (h : Run start before s w []) (he : Neutral (x ++ ext)) (hs : Shut s w [])
    (hc : s.after w = .code) (hx : Run false (w.getLast?.or before) .code x ext)
    (hw : start = false ∨ w ≠ []) : Run start before s (w ++ x) ext := by
  generalize hnil : ([] : Text) = rest at h
  induction h with
  | @ended start before s =>
    obtain rfl : s = .code := hc
    obtain rfl : start = false := by simpa using hw
    simpa using hx
  | stop => simp at hnil
  | @inside start before s b w rest hcode _ ih =>
    subst hnil
    rw [getLast?_cons_or] at hx
    exact .inside hcode (ih hs.tail hc hx (Or.inl rfl) rfl)
  | @byte start before b w rest hb hn _ ih =>
    subst hnil
    rw [getLast?_cons_or] at hx
    rw [List.cons_append]
    refine .byte hb ?_ (ih hs.tail hc hx (Or.inl rfl) rfl)
    rcases hn with hn | hn
    · exact Or.inl hn
    · right
      have happ := token?_append before (t := b::w ++ []) (by simp) he (hs.head (by simp) (by simp))
      rw [List.append_nil] at happ hn
      rw [List.append_assoc,← List.cons_append,happ]
      exact hn

/-- A run goes no further in front of a separator than at the end of the source. -/
lemma Run.append {start : Bool} {before : Option UInt8} {s : Spot} {w rest ext : Text}
    (h : Run start before s w rest) (he : Ends ext) (hs : Shut s w rest)
    (hr : ∀ b ∈ rest.head?, b ≠ Text.ascii '[') (hc : rest = [] → s.after w = .code)
    (hw : start = false ∨ w ≠ []) : Run start before s w (rest ++ ext) := by
  by_cases hrest : rest = []
  · subst hrest
    have hstop : Run false (w.getLast?.or before) .code [] ext := by
      cases ext with
      | nil => exact .ended
      | cons b ext =>
        refine .stop (Or.inr ⟨rfl,?_⟩)
        rw [token?_of_operator (operator?_of_ends he (by simp))]
        rfl
    simpa using h.goes_on (x := []) he.neutral hs (hc rfl) hstop hw
  · exact h.append_rest hrest he.neutral hs hr

/-- A run does not end in front of an opening bracket. -/
lemma Run.head_ne_bracket {before : Option UInt8} {w rest : Text}
    (h : Run true before .code w rest) (hne : w ≠ []) : ∀ b ∈ rest.head?, b ≠ Text.ascii '[' := by
  rintro b hb rfl
  rcases h.boundary (Or.inr hne) _ hb with hblank | htok
  · exact absurd hblank (by decide)
  · obtain ⟨u,rfl⟩ := List.head?_eq_some_iff.mp hb
    obtain ⟨⟨k,n⟩,hk⟩ := Option.isSome_iff_exists.mp htok
    rcases token?_eq_some hk with ⟨-,ha⟩ | ho
    · obtain ⟨c,body,v,hv,hcast,-⟩ := accessor?_eq_some_iff.mp ha
      rw [List.cons.injEq] at hv
      rw [← hv.1] at hcast
      exact absurd hcast (by decide)
    · obtain ⟨v,v',hv,-,hvne,hall,-⟩ := operator?_eq_some ho
      obtain ⟨c,v,rfl⟩ := List.exists_cons_of_ne_nil hvne
      rw [List.cons_append,List.cons.injEq] at hv
      have hc := hall c (by simp)
      rw [← hv.1] at hc
      exact absurd hc (by decide)

lemma Piece.append {before : Option UInt8} {k : Kind} {w rest ext : Text}
    (h : Piece before k w rest) (he : Ends ext) (hs : k = .passthrough → Shut .code w rest)
    (hc : k = .passthrough → rest = [] → Spot.code.after w = .code) :
    Piece before k w (rest ++ ext) := by
  cases h with
  | accessor ho hcast hbody hk => exact .accessor ho hcast hbody hk
  | operator h =>
    have hpiece : Piece before k w rest := .operator h
    refine .operator ?_
    rw [← List.append_assoc,operator?_append (by simp [hpiece.ne_nil]) he.neutral]
    exact h
  | run hne ht hr =>
    have hbracket := hr.head_ne_bracket hne
    refine .run hne ?_ (hr.append he (hs rfl) hbracket (hc rfl) (Or.inr hne))
    rw [← List.append_assoc,token?_append before (by simp [hne]) he.neutral
      ((hs rfl).head hbracket hne)]
    exact ht

/-- A text with all of its literals closed, and with a closing bracket behind every opening one. -/
structure Balanced (t : Text) : Prop where
  closed : Spot.code.after t = .code
  bracket : ∀ p u, t = p ++ Text.ascii '['::u → Spot.code.after p = .code → Text.ascii ']' ∈ u

lemma Balanced.suffix {x t : Text} (h : Balanced (x ++ t)) (hx : Spot.code.after x = .code) :
    Balanced t := by
  refine ⟨?_,?_⟩
  · have hc := h.closed
    rwa [Spot.after_append,hx] at hc
  · intro p u ht hp
    refine h.bracket (x ++ p) u (by rw [ht,List.append_assoc]) ?_
    rw [Spot.after_append,hx,hp]

lemma balanced_nil : Balanced [] := ⟨rfl,by simp⟩

/-- The text of an expression is balanced. -/
lemma balanced_of_laid {e : Script.Expr} {ls : List Script.Lexeme} {t : Text} (h : e.Spelled ls)
    (hl : Script.Laid (ls.map Script.Lexeme.shape) t) : Balanced t := by
  refine ⟨hl.after,?_⟩
  intro p u ht hp
  obtain ⟨ks,ms,hs,hms⟩ := hl.split_bracket ht hp
  obtain ⟨ks',ms',hls,-,hms'⟩ := List.map_eq_append_iff.mp hs
  obtain ⟨o,ns,rfl,ho,hns⟩ := List.map_eq_cons_iff.mp hms'
  have hfits : ∀ l ∈ ls, l.shape.Fits := fun l hl' => hl.fits _ (List.mem_map_of_mem hl')
  have hnest := h.nested hfits (p := (Text.ofString "[",Text.ofString "]")) (by decide)
  have hbehind := hnest.behind (o::ns) (by rw [hls]; exact List.suffix_append _ _)
  have htext : o.text = Text.ofString "[" := congrArg Script.Shape.text ho
  have hpos : 0 < Script.occurrences (Text.ofString "]") ns := by
    have hne : Text.ofString "[" ≠ Text.ofString "]" := by decide
    simp only [Script.occurrences,List.countP_cons,htext,hne,decide_true,decide_false,if_true,
      Bool.false_eq_true,if_false] at hbehind ⊢
    omega
  obtain ⟨c,hc,hct⟩ := List.countP_pos_iff.mp hpos
  have hsub := hms.subset c.shape (by rw [← hns]; exact List.mem_map_of_mem hc)
  refine hsub ?_
  have hct : c.text = Text.ofString "]" := by simpa using hct
  have hshape : c.shape.text = c.text := rfl
  rw [hshape,hct]
  decide

/-- Closing brackets in place of tokens come from the tokens. -/
lemma Cut.mem_of_mem_inPlaceFrom {keep : Prop} {f : Token → Text} {pos : ℕ}
    {before : Option UInt8} {t : Text} {ts : List Token} (h : Cut pos before t ts)
    (hf : ∀ x ∈ ts, Stands keep f x) (hm : Text.ascii ']' ∈ inPlaceFrom f pos t ts) :
    Text.ascii ']' ∈ t := by
  induction h with
  | nil => simp [inPlaceFrom] at hm
  | @blank pos before b t ts hb hc ih =>
    rw [inPlaceFrom_blank hc.le_pos] at hm
    rcases List.mem_cons.mp hm with rfl | hm
    · simp
    · exact List.mem_cons_of_mem _ (ih hf hm)
  | @token pos before k w t ts hb hp hc ih =>
    rw [inPlaceFrom_token] at hm
    rcases List.mem_append.mp hm with hm | hm
    · by_cases hk : k.isAccessor = true
      · cases hp with
        | accessor => simp
        | operator h =>
          obtain ⟨_,_,_,_,_,_,hacc⟩ := operator?_eq_some h
          simp [hk] at hacc
        | run => simp [Kind.isAccessor] at hk
      · rw [(hf ⟨k,w,pos⟩ (by simp)).same (by simpa using hk)] at hm
        exact List.mem_append_left _ hm
    · exact List.mem_append_right _ (ih (fun x hx => hf x (by simp [hx])) hm)

/-- A balanced text is cut in front of a separator as it is cut on its own. -/
theorem Cut.append {keep : Prop} {f : Token → Text} {pos : ℕ} {before : Option UInt8}
    {t ext : Text} {ts us : List Token} (h : Cut pos before t ts)
    (hf : ∀ x ∈ ts, Stands keep f x) (hA : Balanced (inPlaceFrom f pos t ts)) (he : Ends ext)
    (hu : Cut (pos+t.length) (t.getLast?.or before) ext us) :
    Cut pos before (t ++ ext) (ts ++ us) := by
  induction h with
  | nil => simpa using hu
  | @blank pos before b t ts hb hc ih =>
    rw [inPlaceFrom_blank hc.le_pos] at hA
    refine .blank hb (ih hf ?_ ?_)
    · refine Balanced.suffix (x := [b]) hA ?_
      exact Spot.step_code (Script.not_isQuote_of_isBlank hb)
    · rwa [List.length_cons,getLast?_cons_or,show pos+(t.length+1) = pos+1+t.length by omega] at hu
  | @token pos before k w t ts hb hp hc ih =>
    have hw := hp.written hb (hf ⟨k,w,pos⟩ (by simp))
    have hrest : ∀ x ∈ ts, Stands keep f x := fun x hx => hf x (by simp [hx])
    rw [inPlaceFrom_token] at hA
    rw [List.append_assoc,List.cons_append]
    have hsame : k = .passthrough → f ⟨k,w,pos⟩ = w := by
      rintro rfl
      exact (hf ⟨_,w,pos⟩ (by simp)).same rfl
    refine .token hb (hp.append he ?_ ?_) (ih hrest ?_ ?_)
    · intro hk p c u hpw hcode hcast
      rw [hsame hk] at hA
      have hq := not_isQuote_of_isCastLetter hcast
      have hm := hA.bracket (p ++ [c]) (u ++ inPlaceFrom f (pos+w.length) t ts)
        (by rw [hpw]; simp) (by rw [Spot.after_append,hcode]; exact Spot.step_code hq)
      rcases List.mem_append.mp hm with hm | hm
      · exact List.mem_append_left _ hm
      · exact List.mem_append_right _ (hc.mem_of_mem_inPlaceFrom hrest hm)
    · rintro hk rfl
      have hnil : ts = [] := hc.scanFrom_eq.symm
      have hclosed := hA.closed
      rw [hsame hk,hnil] at hclosed
      simpa [inPlaceFrom] using hclosed
    · by_cases ht : t = []
      · subst ht
        have hnil : ts = [] := hc.scanFrom_eq.symm
        rw [hnil]
        exact balanced_nil
      · exact hA.suffix (hw.after ht)
    · rwa [getLast?_append_or hp.ne_nil,List.length_append,← Nat.add_assoc] at hu

def Token.shift (n : ℕ) (t : Token) : Token := { t with pos := t.pos+n }

lemma Cut.shift {pos : ℕ} {before : Option UInt8} {t : Text} {ts : List Token}
    (h : Cut pos before t ts) (n : ℕ) : Cut (pos+n) before t (ts.map (Token.shift n)) := by
  induction h with
  | nil => exact .nil
  | @blank pos before b t ts hb hc ih =>
    rw [show pos+1+n = pos+n+1 by omega] at ih
    exact .blank hb ih
  | @token pos before k w t ts hb hp hc ih =>
    rw [show pos+w.length+n = pos+n+w.length by omega] at ih
    exact .token hb hp ih

/-- Only whether an accessor may start depends on the byte in front. -/
lemma Piece.congr_before {before before' : Option UInt8} {k : Kind} {w rest : Text}
    (h : Piece before k w rest) (ho : opensAfter before' = opensAfter before) :
    Piece before' k w rest := by
  have htoken : ∀ t, token? before' t = token? before t := by
    intro t
    simp only [token?,ho]
  cases h with
  | accessor hopen hcast hbody hk => exact .accessor (ho.trans hopen) hcast hbody hk
  | operator h => exact .operator h
  | run hne ht hr =>
    refine .run hne (by rw [htoken]; exact ht) ?_
    cases hr with
    | ended => exact absurd rfl hne
    | stop => exact absurd rfl hne
    | inside hs => exact absurd rfl hs
    | byte hb hn hr => exact .byte hb (Or.inl rfl) hr

lemma Cut.congr_before {pos : ℕ} {before before' : Option UInt8} {t : Text} {ts : List Token}
    (h : Cut pos before t ts) (ho : opensAfter before' = opensAfter before) :
    Cut pos before' t ts := by
  cases h with
  | nil => exact .nil
  | blank hb hc => exact .blank hb hc
  | token hb hp hc => exact .token hb (hp.congr_before ho) hc

end CellScript.Shorthand
