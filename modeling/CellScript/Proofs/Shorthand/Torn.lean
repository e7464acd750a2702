import Mathlib
import CellScript.Proofs.Shorthand.Filter

/-! Filters that are accepted though their source is not. Blanks between pieces that are no words are
dropped, so a lexeme of the code may have stood in the source as two. -/
namespace CellScript

open Script (Formula Lexeme shapes? Shape Laid Blank Spot isGap)

namespace Script

lemma Shape.Fits.head_append_not_blank {l : Shape} (h : l.Fits) (rest : Text) :
    ∀ b ∈ (l.text ++ rest).head?, Text.isBlank b = false := by
  rw [List.head?_append_of_ne_nil _ (Shape.text_ne_nil h)]
  exact h.head_not_blank

/-- The blanks in front of a layout can be left out. -/
lemma Laid.of_blank_append {ls : List Shape} {gap t : Text} (hg : Blank gap)
    (h : Laid ls (gap ++ t)) : Laid ls t := by
  induction gap with
  | nil => exact h
  | cons b gap ih =>
    have hb : Text.isBlank b = true := hg b (by simp)
    refine ih (fun c hc => hg c (by simp [hc])) ?_
    generalize hx : b::gap ++ t = x at h
    cases h with
    | nil hgap =>
      subst hx
      exact .nil fun c hc => hgap c (by simp [hc])
    | @cons gap' rest l ls hgap hl ha hr =>
      cases gap' with
      | nil =>
        have hhead := hl.head_append_not_blank rest b (by
          rw [← List.nil_append (l.text ++ rest),← hx]
          rfl)
        simp [hb] at hhead
      | cons c gap' =>
        rw [List.cons_append,List.cons_append,List.cons.injEq] at hx
        rw [hx.2]
        exact .cons (fun d hd => hgap d (by simp [hd])) hl ha hr

/-- A source has the lexemes of an expression exactly when it is a layout of them. -/
lemma Expr.Spelled.shapes?_eq_iff {e : Expr} {ls : List Lexeme} (h : e.Spelled ls) (src : Text) :
    shapes? src = some (ls.map Lexeme.shape) ↔ Laid (ls.map Lexeme.shape) src := by
  refine ⟨fun hs => laid_of_shapes? hs ?_,Laid.shapes?⟩
  rw [List.isChain_map]
  exact h.chained.chain.imp fun l m hlm hl hm => hlm.touching hl hm

end Script

namespace Shorthand

/-- A lexeme in two parts that do not stick to each other: an operator, a number with a point or an
exponent, or a name with letters outside ASCII. -/
structure Parts (l : Shape) (p q : Text) : Prop where
  text : l.text = p ++ q
  left : p ≠ []
  right : q ≠ []
  loose : sticky p.getLast? q.head? = false
  kind : l.kind = .operator ∨ l.kind = .float ∨ l.kind = .name

/-- Lexemes in order with blanks around them, up to one that has blanks inside of it. -/
inductive Torn : List Shape → Text → Prop
  | here {gap p q g rest : Text} {l : Shape} {ls : List Shape} : Blank gap → Parts l p q → Blank g →
      g ≠ [] → rest.head? = q.head? → Torn (l::ls) (gap ++ (p ++ (g ++ rest)))
  | behind {gap rest : Text} {l : Shape} {ls : List Shape} : Blank gap → Torn ls rest →
      Torn (l::ls) (gap ++ (l.text ++ rest))

/-- A source with a lexeme torn apart is no layout of the lexemes. -/
theorem Torn.not_laid {ls : List Shape} {t : Text} (h : Torn ls t) : ¬ Laid ls t := by
  induction h with
  | @here gap p q g rest l ls hgap hparts hg hne hhead =>
    intro hlaid
    have hfits : l.Fits := hlaid.fits l (by simp)
    have hplain : ∀ b ∈ l.text, Text.isBlank b = false ∧ Text.isQuote b = false := by
      refine hfits.plain ?_
      rcases hparts.kind with hk | hk | hk <;> simp [hk]
    have hp : ∀ b ∈ (p ++ (g ++ rest)).head?, Text.isBlank b = false := by
      intro b hb
      rw [List.head?_append_of_ne_nil _ hparts.left] at hb
      refine (hplain b ?_).1
      rw [hparts.text]
      exact List.mem_append_left _ (List.mem_of_head? hb)
    obtain ⟨tail,htail,-⟩ := (hlaid.of_blank_append hgap).uncons hp
    rw [hparts.text,List.append_assoc,List.append_cancel_left_eq] at htail
    -- the blank behind the first part would be the first byte of the second one
    obtain ⟨b,g,rfl⟩ := List.exists_cons_of_ne_nil hne
    obtain ⟨c,q,rfl⟩ := List.exists_cons_of_ne_nil hparts.right
    rw [List.cons_append,List.cons_append,List.cons.injEq] at htail
    have hc := (hplain c (by rw [hparts.text]; simp)).1
    rw [← htail.1,hg b (by simp)] at hc
    simp at hc
  | @behind gap rest l ls hgap _ ih =>
    intro hlaid
    have hfits : l.Fits := hlaid.fits l (by simp)
    obtain ⟨tail,htail,-,-,hrest⟩ :=
      (hlaid.of_blank_append hgap).uncons (hfits.head_append_not_blank rest)
    rw [List.append_cancel_left_eq] at htail
    exact ih (htail ▸ hrest)

lemma sticks_of_int {l : Shape} (h : l.Fits) (hk : l.kind = .int) :
    ∀ b ∈ l.text, sticks b = true := by
  intro b hb
  rw [Shape.Fits,hk] at h
  rw [← Text.ofRunes_runes l.text,Text.ofRunes,List.mem_flatMap] at hb
  obtain ⟨r,hr,hbr⟩ := hb
  have hd := h.2 r hr
  cases r with
  | stray x => simp [Rune.isDigit] at hd
  | char c =>
    have hc := Script.isDigit_iff.mp hd
    rw [Rune.bytes_of_lt (by omega),List.mem_singleton] at hbr
    subst hbr
    have hn : (UInt8.ofNat c.toNat).toNat = c.toNat := by
      simp
      omega
    simp only [sticks,Text.isWord,Text.isDigit,Bool.or_eq_true,Bool.and_eq_true,decide_eq_true_eq,
      UInt8.le_iff_toNat_le,hn]
    exact Or.inl (Or.inr ⟨hc.1,hc.2⟩)

/-- Strings apart, only operators, numbers that are no integers and names have parts that do not
stick. -/
lemma Parts.of_loose {l : Shape} (h : l.Fits) (hk : l.kind ≠ .string) {p q : Text}
    (ht : l.text = p ++ q) (hp : p ≠ []) (hq : q ≠ []) (hs : sticky p.getLast? q.head? = false) :
    Parts l p q := by
  refine ⟨ht,hp,hq,hs,?_⟩
  cases hkind : l.kind with
  | operator | float | name => simp
  | string => exact absurd hkind hk
  | int =>
    have hall := sticks_of_int h hkind
    obtain ⟨a,ha⟩ := Option.ne_none_iff_exists'.mp (mt List.getLast?_eq_none_iff.mp hp)
    obtain ⟨b,hb⟩ := Option.ne_none_iff_exists'.mp (mt List.head?_eq_none_iff.mp hq)
    have ha' := hall a (by rw [ht]; exact List.mem_append_left _ (List.mem_of_getLast? ha))
    have hb' := hall b (by rw [ht]; exact List.mem_append_right _ (List.mem_of_head? hb))
    simp [ha,hb,sticky,ha',hb'] at hs
  | punctuation =>
    rw [Shape.Fits,hkind] at h
    obtain ⟨c,hc,hr⟩ := h
    have hlt : ∀ c ∈ Script.punctuationMarks, c.toNat < 0x80 := by simp [Script.punctuationMarks]
    have hone := congrArg List.length (Text.ofRunes_runes l.text)
    rw [hr,Text.ofRunes_cons,Text.ofRunes_nil,Rune.bytes_of_lt (hlt c hc),ht] at hone
    simp only [List.append_nil,List.length_singleton,List.length_append] at hone
    have hp' := List.length_pos_of_ne_nil hp
    have hq' := List.length_pos_of_ne_nil hq
    omega

section

variable {last : Option UInt8} {gap : Bool}

/-- Code of blanks only comes from blanks. -/
lemma Respaced.backBlank {t u : Text} (hu : Blank u) (h : Respaced False last gap .code t u) :
    Blank t := by
  induction t generalizing last gap with
  | nil => simp [Blank]
  | cons b t ih =>
    cases h with
    | inside hs => exact absurd rfl hs
    | kept hk => exact absurd hk id
    | dropped hb h =>
      intro c hc
      rcases List.mem_cons.mp hc with rfl | hc
      · exact hb
      · exact ih h c hc
    | byte hb =>
      rw [hu b (by simp)] at hb
      simp at hb
    | spaced hb =>
      rw [hu b (by simp)] at hb
      simp at hb

/-- Where a text starts with no blank, no blanks stand in front of its first byte. -/
lemma eq_nil_of_blank_append {sep u v : Text} {b c : UInt8} (hsep : Blank sep)
    (hc : Text.isBlank c = false) (h : sep ++ b::v = c::u) : sep = [] ∧ b = c ∧ v = u := by
  cases sep with
  | nil => exact ⟨rfl,List.cons.inj h⟩
  | cons d sep =>
    rw [List.cons_append,List.cons.injEq] at h
    rw [← h.1,hsep d (by simp)] at hc
    simp at hc

/-- A byte of the code stands in the source behind some blanks. Where they were dropped it does not
stick. -/
lemma Respaced.backByte {sep t v : Text} {b : UInt8} (hsep : Blank sep)
    (hb : Text.isBlank b = false) (h : Respaced False last gap .code t (sep ++ b::v)) :
    ∃ g t', t = g ++ b::t' ∧ Blank g ∧
      (sep = [] → gap = true ∨ g ≠ [] → sticky last (some b) = false) ∧
      Respaced False (some b) false (Spot.code.step b) t' v := by
  induction t generalizing gap with
  | nil =>
    generalize hx : sep ++ b::v = x at h
    cases h with
    | nil => simp at hx
  | cons c t ih =>
    generalize hx : sep ++ b::v = x at h
    cases h with
    | inside hs => exact absurd rfl hs
    | kept hk => exact absurd hk id
    | dropped hc h =>
      subst hx
      obtain ⟨g,t',rfl,hg,hloose,hrest⟩ := ih h
      refine ⟨c::g,t',rfl,?_,fun hnil _ => hloose hnil (Or.inl rfl),hrest⟩
      intro d hd
      rcases List.mem_cons.mp hd with rfl | hd
      · exact hc
      · exact hg d hd
    | byte hc hloose h =>
      obtain ⟨rfl,rfl,rfl⟩ := eq_nil_of_blank_append hsep hc hx
      exact ⟨[],t,rfl,by simp [Blank],fun _ hgap => hloose (by simpa using hgap),h⟩
    | spaced hc hsticky hgap h =>
      cases sep with
      | nil =>
        rw [List.nil_append,List.cons.injEq] at hx
        rw [hx.1] at hb
        exact absurd hb (by decide)
      | cons d sep =>
        rw [List.cons_append,List.cons.injEq] at hx
        obtain ⟨rfl,rfl,rfl⟩ := eq_nil_of_blank_append (fun e he => hsep e (by simp [he])) hc hx.2
        exact ⟨[],t,rfl,by simp [Blank],by simp,h⟩

/-- The bytes of a literal stand in the source as they are. -/
lemma Respaced.backLiteral {s : Spot} {w t u : Text} (hw : s.Closes w)
    (h : Respaced False last false s t (w ++ u)) :
    ∃ t', t = w ++ t' ∧ Respaced False (w.getLast?.or last) false .code t' u := by
  induction w generalizing last s t with
  | nil =>
    have hs : s = .code := hw
    subst hs
    exact ⟨t,rfl,by simpa using h⟩
  | cons b w ih =>
    obtain ⟨t₁,rfl,h₁⟩ : ∃ t₁, t = b::t₁ ∧
        Respaced False (some b) false (s.step b) t₁ (w ++ u) := by
      generalize hx : b::w ++ u = x at h
      cases h with
      | nil => simp at hx
      | inside _ h =>
        obtain ⟨rfl,rfl⟩ := List.cons.inj hx
        exact ⟨_,rfl,h⟩
      | dropped => exact absurd rfl hw.1
      | kept => exact absurd rfl hw.1
      | byte => exact absurd rfl hw.1
      | spaced => exact absurd rfl hw.1
    obtain ⟨t',rfl,h'⟩ := ih hw.2 h₁
    refine ⟨t',rfl,?_⟩
    rw [List.getLast?_cons]
    cases hx : w.getLast? <;> simpa [hx] using h'

/-- The bytes of a lexeme that is no string stand in the source one after the other, up to blanks in
front of one that does not stick. -/
lemma Respaced.backCode {w t u : Text} {a : UInt8}
    (hw : ∀ b ∈ w, Text.isBlank b = false ∧ Text.isQuote b = false)
    (h : Respaced False (some a) false .code t (w ++ u)) :
    (∃ t', t = w ++ t' ∧ Respaced False (a::w).getLast? false .code t' u) ∨
      ∃ p q g rest, w = p ++ q ∧ q ≠ [] ∧ t = p ++ (g ++ rest) ∧ Blank g ∧ g ≠ [] ∧
        rest.head? = q.head? ∧ sticky (a::p).getLast? q.head? = false := by
  induction w generalizing a t with
  | nil => exact Or.inl ⟨t,rfl,h⟩
  | cons b w ih =>
    obtain ⟨hb,hq⟩ := hw b (by simp)
    have hnone : Blank [] := by simp [Blank]
    obtain ⟨g,t₁,rfl,hg,hloose,h₁⟩ := h.backByte hnone hb
    by_cases hgap : g = []
    · subst hgap
      rw [Spot.step_code hq] at h₁
      rcases ih (fun c hc => hw c (by simp [hc])) h₁ with
        ⟨t',rfl,h'⟩ | ⟨p,q,g,rest,rfl,hne,rfl,hg,hgne,hhead,hs⟩
      · exact Or.inl ⟨t',rfl,by simpa using h'⟩
      · exact Or.inr ⟨b::p,q,g,rest,rfl,hne,rfl,hg,hgne,hhead,by simpa using hs⟩
    · exact Or.inr ⟨[],b::w,g,b::t₁,rfl,by simp,rfl,hg,hgap,rfl,by
        simpa using hloose rfl (Or.inr hgap)⟩

/-- A lexeme of the code stands in the source as it is, or torn apart. -/
lemma Respaced.backLexeme {l : Shape} {sep t u : Text} (hl : l.Fits) (hsep : Blank sep)
    (h : Respaced False last gap .code t (sep ++ (l.text ++ u))) :
    (∃ g t', t = g ++ (l.text ++ t') ∧ Blank g ∧
      Respaced False l.text.getLast? false .code t' u) ∨ ∀ ls, Torn (l::ls) t := by
  obtain ⟨b,w,hw⟩ := List.exists_cons_of_ne_nil (Shape.text_ne_nil hl)
  have hb : Text.isBlank b = false := hl.head_not_blank b (by rw [hw]; rfl)
  rw [hw,List.cons_append] at h
  obtain ⟨g,t₁,rfl,hg,-,h₁⟩ := h.backByte hsep hb
  by_cases hk : l.kind = .string
  · obtain ⟨q,body,ht,hq,hc⟩ := hl.closes hk
    rw [hw,List.cons.injEq] at ht
    obtain ⟨rfl,rfl⟩ := ht
    rw [Spot.step,if_pos hq] at h₁
    obtain ⟨t',rfl,h'⟩ := h₁.backLiteral hc
    refine Or.inl ⟨g,t',by rw [hw]; rfl,hg,?_⟩
    rw [hw,List.getLast?_cons]
    cases hx : w.getLast? <;> simpa [hx] using h'
  · have hplain : ∀ c ∈ b::w, Text.isBlank c = false ∧ Text.isQuote c = false := by
      rw [← hw]
      exact hl.plain hk
    rw [Spot.step_code (hplain b (by simp)).2] at h₁
    rcases h₁.backCode fun c hc => hplain c (by simp [hc]) with
      ⟨t',rfl,h'⟩ | ⟨p,q,g',rest,rfl,hq,rfl,hg',hne,hhead,hs⟩
    · exact Or.inl ⟨g,t',by rw [hw]; rfl,hg,by rwa [hw]⟩
    · refine Or.inr fun ls => ?_
      exact .here hg (.of_loose hl hk hw (by simp) hq hs) hg' hne hhead

/-- What stands apart from a lexeme in the code stands apart from it in the source. -/
lemma Respaced.backApart {l : Shape} {ls : List Shape} {t u : Text} (hl : l.Fits)
    (ha : ∀ r ∈ u.runes.head?, l.Apart r) (hu : Laid ls u) (ht : Laid ls t)
    (h : Respaced False l.text.getLast? false .code t u) : ∀ r ∈ t.runes.head?, l.Apart r := by
  intro r hr
  by_cases hgap : isGap r = true
  · exact Shape.apart_of_isGap l hgap
  · cases t with
    | nil => simp at hr
    | cons b t =>
      have hb : Text.isBlank b = false := by
        by_contra hb
        obtain ⟨x,hx,hxr⟩ := Script.isGap_of_isBlank (by simpa using hb) t
        rw [hxr] at hr
        obtain rfl : x = r := by simpa using hr
        exact hgap hx
      obtain ⟨sep,v,rfl,-,-,hspaced,-⟩ := h.passByte hb
      by_cases hsep : sep = []
      · -- both start with the same lexeme, so with the same rune
        subst hsep
        cases ls with
        | nil => exact absurd (ht.isGap_of_nil r hr) hgap
        | cons m ms =>
          have hsame : ∀ {x : Text}, Laid (m::ms) (b::x) →
              (Text.runes (b::x)).head? = m.text.runes.head? :=
            fun hx => hx.head?_runes (Script.not_isGap_of_head (by simpa using hb))
          refine ha r ?_
          rwa [List.nil_append,hsame hu,← hsame ht]
      · -- a blank is put behind a string only
        rcases (hspaced hsep).2 with hfalse | ⟨q,hq,hquote⟩
        · simp at hfalse
        · have hk : l.kind = .string := by
            by_contra hk
            rw [(hl.plain hk q (List.mem_of_getLast? hq)).2] at hquote
            simp at hquote
          simp [Shape.Apart,Script.Apart,hk]

/-- A layout of the code is one of the source as well, unless a lexeme is torn apart there. -/
theorem Respaced.laid_or_torn {ls : List Shape} {t u : Text} (hlaid : Laid ls u)
    (h : Respaced False last gap .code t u) : Laid ls t ∨ Torn ls t := by
  induction hlaid generalizing last gap t with
  | nil hg => exact Or.inl (.nil (h.backBlank hg))
  | @cons sep u l ls hsep hl ha hu ih =>
    rcases h.backLexeme hl hsep with ⟨g,t',rfl,hg,h'⟩ | htorn
    · rcases ih h' with hrest | htorn
      · exact Or.inl (.cons hg hl (h'.backApart hl ha hu hrest) hrest)
      · exact Or.inr (.behind hg htorn)
    · exact Or.inr (htorn ls)

end

/-- A filter without accessors whose code is accepted. Its source is accepted with the same tree when
it has the same lexemes, and it has them unless one of them is torn apart by blanks. -/
theorem compile_filter_source_iff (quoting : Bool) {src : Text}
    (hn : ∀ t ∈ scan src, t.kind.isAccessor = false) :
    ∃ x, expand .filter quoting src = .ok x ∧
      ∀ g ls, Formula.compile x.code = .ok g → shapes? x.code = some ls →
        ((∃ f, Formula.compile src = .ok f ∧ g.expr.SameTree f.expr) ↔
          shapes? src = shapes? x.code) ∧
        (shapes? src = shapes? x.code ↔ ¬ Torn ls src) := by
  refine ⟨⟨glueAll ((scan src).map Token.lexeme),[]⟩,?_,?_⟩
  · rw [expand_filter,mapM_reading hn]
    rfl
  · intro g ls hg hs
    obtain ⟨ms,hms,rfl⟩ := Option.map_eq_some_iff.mp hs
    have hspelled := Script.spelled_of_compile hg hms
    have hcode : Laid (ms.map Lexeme.shape) _ := hspelled.laid hms
    rw [hs,hspelled.shapes?_eq_iff]
    refine ⟨⟨?_,fun h => Script.compile_of_shapes hg hms h⟩,?_⟩
    · rintro ⟨f,hf,hsame⟩
      obtain ⟨-,-,ns,hns,-⟩ := Formula.compile_eq_ok_iff.mp hf
      have hsrc := Script.spelled_of_compile hf hns
      have hfused := laid_glueAll hn (hsrc.laid hns) (by
        rw [List.isChain_map]
        exact hsrc.chained.chain)
      have hshapes : ms.map Lexeme.shape = fuse (ns.map Lexeme.shape) :=
        Option.some.inj (hcode.shapes?.symm.trans hfused.shapes?)
      -- equal trees are spelled with equally many lexemes, and joined names would make them fewer
      have hfree : (ns.map Lexeme.shape).IsChain fun l m => ¬ Fuses l m := by
        refine isChain_of_length_fuse (hsrc.laid hns).fits ?_
        rw [← hshapes,List.length_map,List.length_map,Script.length_of_spelled _ hspelled,
          Script.length_of_spelled _ hsrc,Script.alike_size _ hsame]
      rw [hshapes,fuse_eq_self hfree]
      exact hsrc.laid hns
    · exact ⟨fun h htorn => htorn.not_laid h,
        fun h => ((respaced_glueAll hn).laid_or_torn hcode).resolve_right h⟩

/-- Blanks between words and around operators tear nothing apart. -/
theorem compile_filter_source_spaced :
    let src := Text.ofString "not  a or 1 <= .5"
    let code := Text.ofString "not a or 1<=.5"
    expand .filter true src = .ok ⟨code,[]⟩ ∧
      ∃ g f, Formula.compile code = .ok g ∧ Formula.compile src = .ok f ∧
        g.expr.SameTree f.expr := by
  intro src code
  have hn : ∀ t ∈ scan src, t.kind.isAccessor = false := by decide +kernel
  obtain ⟨x,hx,hsource⟩ := compile_filter_source_iff true hn
  have hcode : expand .filter true src = .ok ⟨code,[]⟩ := by decide +kernel
  obtain rfl := Except.ok.inj (hcode.symm.trans hx)
  obtain ⟨g,hg⟩ := exists_ok (x := Formula.compile code) (by decide +kernel)
  obtain ⟨ls,hs⟩ := Option.isSome_iff_exists.mp
    (show (shapes? code).isSome = true by decide +kernel)
  obtain ⟨f,hf,hsame⟩ := (hsource g ls hg hs).1.mpr (by decide +kernel)
  exact ⟨hcode,g,f,hg,hf,hsame⟩

/-- Two signs with a blank between them become one operator, and a source that is no expression is
accepted. -/
theorem compile_filter_torn_sign :
    (∀ t ∈ scan (Text.ofString "1 = = 1"), t.kind.isAccessor = false) ∧
      (∃ x g, expand .filter true (Text.ofString "1 = = 1") = .ok x ∧
        Formula.compile x.code = .ok g) ∧
      ∀ f, Formula.compile (Text.ofString "1 = = 1") ≠ .ok f := by
  obtain ⟨g,hg⟩ := exists_ok (x := Formula.compile (Text.ofString "1==1")) (by decide +kernel)
  refine ⟨by decide +kernel,⟨⟨Text.ofString "1==1",[]⟩,g,by decide +kernel,hg⟩,?_⟩
  intro f hf
  have hnone : (Formula.compile (Text.ofString "1 = = 1")).toOption.isSome = false := by
    decide +kernel
  rw [hf] at hnone
  simp [Except.toOption] at hnone

end Shorthand
end CellScript
