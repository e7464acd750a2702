import Mathlib
import CellScript.Proofs.Script.Lexeme
import CellScript.Proofs.Text.Blank

/-! Lexemes laid out as a text with blanks between them. Lexing takes a text apart into the lexemes
it was laid out from, as long as no two of them run together. -/
namespace CellScript.Script

/-- A lexeme without its place. -/
structure Shape where
  kind : LexemeKind
  text : Text
  deriving DecidableEq

def Lexeme.shape (l : Lexeme) : Shape := ⟨l.kind,l.text⟩

namespace Shape

def Fits (s : Shape) : Prop := Script.Fits s.kind s.text.runes

def Apart (s : Shape) (r : Rune) : Prop := Script.Apart s.kind s.text.runes r

end Shape

def shapes? (t : Text) : Option (List Shape) := (lex? t).map (·.map Lexeme.shape)

def Blank (t : Text) : Prop := ∀ b ∈ t, Text.isBlank b = true

/-- What does not start with a blank stands behind the blanks in front of a text. -/
lemma Blank.split {gap t p u : Text} {b : UInt8} (hg : Blank gap) (hb : Text.isBlank b = false)
    (h : gap ++ t = p ++ b::u) : ∃ q, p = gap ++ q ∧ t = q ++ b::u := by
  rcases List.append_eq_append_iff.mp h with ⟨q,hq,ht⟩ | ⟨q,rfl,ht⟩
  · exact ⟨q,hq,ht⟩
  · cases q with
    | nil => exact ⟨[],by simp,by simpa using ht.symm⟩
    | cons c q =>
      rw [List.cons_append,List.cons.injEq] at ht
      rw [ht.1,hg c (by simp)] at hb
      simp at hb

/-- Lexemes in order with blanks around them, each followed by a rune that it cannot go on with. -/
inductive Laid : List Shape → Text → Prop
  | nil {gap : Text} : Blank gap → Laid [] gap
  | cons {gap rest : Text} {l : Shape} {ls : List Shape} : Blank gap → l.Fits →
      (∀ r ∈ rest.runes.head?, l.Apart r) → Laid ls rest → Laid (l::ls) (gap ++ (l.text ++ rest))

lemma Laid.cons_touching {rest : Text} {l : Shape} {ls : List Shape} (hl : l.Fits)
    (ha : ∀ r ∈ rest.runes.head?, l.Apart r) (hr : Laid ls rest) : Laid (l::ls) (l.text ++ rest) :=
  .cons (by simp [Blank] : Blank []) hl ha hr

lemma isGap_of_isBlank {b : UInt8} (h : Text.isBlank b = true) (t : Text) :
    ∃ r, isGap r = true ∧ Text.runes (b::t) = r :: Text.runes t := by
  have hb : b = Text.ascii ' ' ∨ b = Text.ascii '\t' ∨ b = Text.ascii '\n' ∨
      b = Text.ascii '\r' := by simpa [Text.isBlank,or_assoc] using h
  refine ⟨.char (Char.ofNat b.toNat),?_,Text.runes_cons_of_lt ?_ t⟩
  · rcases hb with rfl | rfl | rfl | rfl <;> decide
  · rcases hb with rfl | rfl | rfl | rfl <;> decide

lemma isGap_iff {r : Rune} : isGap r = true ↔
    r = .char ' ' ∨ r = .char '\t' ∨ r = .char '\r' ∨ r = .char '\n' := by
  simp [isGap,or_assoc]

lemma not_continuesName_of_isGap {r : Rune} (h : isGap r = true) : continuesName r = false := by
  have hc : ∀ c ∈ [' ','\t','\r','\n'], c.toNat < 128 ∧ ¬ (c = '_' ∨
      (65 ≤ c.toNat ∧ c.toNat ≤ 90) ∨ (97 ≤ c.toNat ∧ c.toNat ≤ 122) ∨
      (48 ≤ c.toNat ∧ c.toNat ≤ 57)) := by simp
  have hr : ∃ c ∈ [' ','\t','\r','\n'], r = .char c := by
    simpa using isGap_iff.mp h
  obtain ⟨c,hmem,rfl⟩ := hr
  obtain ⟨hlt,hn⟩ := hc c hmem
  simpa using mt (continuesName_of_lt hlt).mp hn

/-- A blank stands apart from every lexeme. -/
lemma Shape.apart_of_isGap (s : Shape) {r : Rune} (h : isGap r = true) : s.Apart r := by
  have hn := not_continuesName_of_isGap h
  have hd : r.isDigit = false := by
    by_contra hd
    rw [continuesName_of_isDigit (by simpa using hd)] at hn
    simp at hn
  have hr := isGap_iff.mp h
  cases hk : s.kind with
  | float | int =>
    simp only [Apart,Script.Apart,hk]
    refine ⟨hd,?_,?_,?_⟩ <;> rintro rfl <;> revert h <;> decide
  | string => simp [Apart,Script.Apart,hk]
  | name => simpa [Apart,Script.Apart,hk] using hn
  | operator =>
    simp only [Apart,Script.Apart,hk]
    rintro op hop - rfl
    have hg : ∀ op ∈ longOperators, isGap (.char op.2) = false := by
      simp [longOperators,isGap,Rune.isAscii]
    rw [hg op hop] at h
    simp at h
  | punctuation =>
    simp only [Apart,Script.Apart,hk]
    exact fun _ => hd

def shapesOf (rs : List Rune) : Option (List Shape) := (lexFrom {} 0 rs).map (·.map Lexeme.shape)

lemma lexFrom_shape (p q : Text.Position) (n : ℕ) (rs : List Rune) :
    (lexFrom p n rs).map (·.map Lexeme.shape) = (lexFrom q n rs).map (·.map Lexeme.shape) := by
  induction rs generalizing p q n with
  | nil => rfl
  | cons r rs ih =>
    cases n with
    | succ n => exact ih _ _ n
    | zero =>
      rw [lexFrom,lexFrom]
      split
      · exact ih _ _ 0
      · split
        · rfl
        · next k n hn =>
          have h := ih (p.after r) (q.after r) (n-1)
          simp only [Option.map_map,Function.comp_def,List.map_cons,Lexeme.shape] at h ⊢
          have hm := congrArg (Option.map (⟨k,Text.ofRunes ((r::rs).take n)⟩ :: ·)) h
          simpa only [Option.map_map,Function.comp_def] using hm

lemma lexFrom_drop (p : Text.Position) (n : ℕ) (rs : List Rune) :
    (lexFrom p n rs).map (·.map Lexeme.shape) = shapesOf (rs.drop n) := by
  induction rs generalizing p n with
  | nil => simp [shapesOf,lexFrom]
  | cons r rs ih =>
    cases n with
    | succ n => exact ih _ n
    | zero => exact lexFrom_shape _ _ _ _

@[simp] lemma shapesOf_nil : shapesOf [] = some [] := rfl

lemma shapesOf_gap {r : Rune} (h : isGap r = true) (rs : List Rune) :
    shapesOf (r::rs) = shapesOf rs := by
  rw [shapesOf,lexFrom,if_pos h]
  exact lexFrom_drop _ 0 rs

lemma shapesOf_none {r : Rune} {rs : List Rune} (h : isGap r = false)
    (hn : nextLexeme? (r::rs) = none) : shapesOf (r::rs) = none := by
  simp [shapesOf,lexFrom,h,hn]

lemma shapesOf_append {k : LexemeKind} {l rest : List Rune} (hl : ∀ r ∈ l.head?, isGap r = false)
    (hne : l ≠ []) (hn : nextLexeme? (l ++ rest) = some (k,l.length)) :
    shapesOf (l ++ rest) = (shapesOf rest).map (⟨k,Text.ofRunes l⟩ :: ·) := by
  obtain ⟨r,l,rfl⟩ := List.exists_cons_of_ne_nil hne
  have hg : isGap r = false := hl r rfl
  simp only [List.cons_append] at hn ⊢
  have ht : (r::(l ++ rest)).take (r::l).length = r::l := by simp
  have hd := lexFrom_drop ((({} : Text.Position)).after r) l.length (l ++ rest)
  rw [List.drop_left] at hd
  simp only [shapesOf,lexFrom,hg,hn,ht] at hd ⊢
  rw [← hd]
  simp only [Bool.false_eq_true,if_false,Option.map_map,Function.comp_def,List.map_cons,
    Lexeme.shape,List.length_cons,Nat.add_sub_cancel]

lemma shapes?_eq (t : Text) : shapes? t = shapesOf t.runes := rfl

lemma shapes?_blank {b : UInt8} (h : Text.isBlank b = true) (t : Text) :
    shapes? (b::t) = shapes? t := by
  obtain ⟨r,hr,ht⟩ := isGap_of_isBlank h t
  rw [shapes?_eq,ht,shapesOf_gap hr,shapes?_eq]

lemma shapes?_blank_append {gap : Text} (h : Blank gap) (t : Text) :
    shapes? (gap ++ t) = shapes? t := by
  induction gap with
  | nil => rfl
  | cons b gap ih =>
    rw [List.cons_append,shapes?_blank (h b (by simp)),ih fun c hc => h c (by simp [hc])]

lemma Fits.ne_nil {k : LexemeKind} {l : List Rune} (h : Fits k l) : l ≠ [] := by
  cases k with
  | float =>
    obtain ⟨d,p,x,-,-,⟨rfl,-⟩ | ⟨rfl,hd,-⟩⟩ := h
    · simp
    · simp [hd]
  | int => exact h.1
  | string =>
    obtain ⟨q,body,rfl,-⟩ := h
    simp
  | name =>
    obtain ⟨r,rest,rfl,-⟩ := h
    simp
  | operator => rcases h with ⟨c,-,rfl⟩ | ⟨op,-,rfl⟩ <;> simp
  | punctuation =>
    obtain ⟨c,-,rfl⟩ := h
    simp

lemma Fits.head_number {k : LexemeKind} {l : List Rune} (h : Fits k l)
    (hk : k = .float ∨ k = .int) : ∀ r ∈ l.head?, r.isDigit = true ∨ r = .char '.' := by
  intro r hr
  rcases hk with rfl | rfl
  · obtain ⟨d,p,x,hd,-,⟨rfl,-⟩ | ⟨rfl,hne,-⟩⟩ := h
    · cases d with
      | nil =>
        simp only [List.nil_append,List.head?_cons,Option.mem_def,Option.some.injEq] at hr
        exact Or.inr hr.symm
      | cons y d =>
        simp only [List.cons_append,List.head?_cons,Option.mem_def,Option.some.injEq] at hr
        subst hr
        exact Or.inl (hd y (by simp))
    · cases d with
      | nil => exact absurd rfl hne
      | cons y d =>
        simp only [List.cons_append,List.head?_cons,Option.mem_def,Option.some.injEq] at hr
        subst hr
        exact Or.inl (hd y (by simp))
  · exact Or.inl (h.2 r (List.mem_of_head? hr))

lemma Fits.head_string {l : List Rune} (h : Fits .string l) :
    ∀ r ∈ l.head?, r = .char '"' ∨ r = .char '\'' := by
  obtain ⟨q,body,rfl,hq,-⟩ := h
  simpa using hq

lemma Fits.head_name {l : List Rune} (h : Fits .name l) : ∀ r ∈ l.head?, startsName r = true := by
  obtain ⟨x,rest,rfl,hx,-⟩ := h
  simpa using hx

/-- A name starts with a letter, a number with a digit or a point, and the others with marks. -/
lemma Fits.head_cases {k : LexemeKind} {l : List Rune} (h : Fits k l) :
    ∀ r ∈ l.head?, (k = .name ∧ startsName r = true) ∨
      ((k = .float ∨ k = .int) ∧ r.isDigit = true) ∨ ∃ c ∈ marksAndQuotes, r = .char c := by
  intro r hr
  cases k with
  | name => exact Or.inl ⟨rfl,h.head_name r hr⟩
  | float | int =>
    right
    rcases h.head_number (by simp) r hr with hd | rfl
    · exact Or.inl ⟨by simp,hd⟩
    · exact Or.inr ⟨'.',by decide,rfl⟩
  | string =>
    right
    right
    rcases h.head_string r hr with rfl | rfl
    · exact ⟨'"',by decide,rfl⟩
    · exact ⟨'\'',by decide,rfl⟩
  | operator =>
    right
    right
    obtain ⟨c,hc,rfl⟩ := h.madeOf r (List.mem_of_head? hr)
    refine ⟨c,?_,rfl⟩
    simp only [List.mem_append] at hc
    simp only [marksAndQuotes,marks,List.mem_cons,List.mem_append]
    tauto
  | punctuation =>
    right
    right
    obtain ⟨c,hc,rfl⟩ := h.madeOf r (List.mem_of_head? hr)
    exact ⟨c,by simp [marksAndQuotes,marks,hc],rfl⟩

/-- A lexeme starts with a decoded character that is no blank. -/
lemma Fits.head {k : LexemeKind} {l : List Rune} (h : Fits k l) :
    ∀ r ∈ l.head?, isGap r = false ∧ ∃ c, r = .char c := by
  have hword : ∀ r : Rune, continuesName r = true → isGap r = false := by
    intro r hr
    by_contra hg
    rw [not_continuesName_of_isGap (by simpa using hg)] at hr
    simp at hr
  have hmark : ∀ c ∈ marksAndQuotes, isGap (.char c) = false := by
    simp [marksAndQuotes,marks,shortOperators,punctuationMarks,longOperators,isGap,Rune.isAscii]
  intro r hr
  rcases h.head_cases r hr with ⟨-,hs⟩ | ⟨-,hd⟩ | ⟨c,hc,rfl⟩
  · refine ⟨hword r (continuesName_of_startsName hs),?_⟩
    cases r with
    | char c => exact ⟨c,rfl⟩
    | stray b => simp [startsName,Rune.isAscii,Rune.isLetter] at hs
  · refine ⟨hword r (continuesName_of_isDigit hd),?_⟩
    cases r with
    | char c => exact ⟨c,rfl⟩
    | stray b => simp [Rune.isDigit] at hd
  · exact ⟨hmark c hc,c,rfl⟩

lemma Laid.blank_append {gap t : Text} {ls : List Shape} (hg : Blank gap) (h : Laid ls t) :
    Laid ls (gap ++ t) := by
  cases h with
  | nil h =>
    refine .nil ?_
    intro b hb
    rcases List.mem_append.mp hb with hb | hb
    · exact hg b hb
    · exact h b hb
  | cons h hl ha hr =>
    rw [← List.append_assoc]
    refine .cons ?_ hl ha hr
    intro b hb
    rcases List.mem_append.mp hb with hb | hb
    · exact hg b hb
    · exact h b hb

lemma Shape.text_ne_nil {s : Shape} (h : s.Fits) : s.text ≠ [] := by
  intro hn
  apply Script.Fits.ne_nil h
  rw [hn,Text.runes_nil]

/-- What starts with a decoded character can be read on its own. -/
lemma payload?_of_runes_head {t : Text} (h : ∀ r ∈ t.runes.head?, ∃ c, r = .char c) :
    ∀ y ∈ t.head?, Rune.payload? y = none := by
  cases t with
  | nil => simp
  | cons b t =>
    intro y hy
    simp only [List.head?_cons,Option.mem_def,Option.some.injEq] at hy
    subst hy
    obtain ⟨c,hc⟩ := h (Rune.first b t) (by rw [Text.runes_cons]; rfl)
    cases hp : Rune.payload? b with
    | none => rfl
    | some n =>
      obtain ⟨h1,h2,-⟩ := Rune.payload?_eq_some hp
      have hb : ¬ b < 0x80 := by
        rw [UInt8.lt_iff_toNat_lt]
        exact Nat.not_lt.mpr h1
      have hb' : b < 0xC0 := by
        rw [UInt8.lt_iff_toNat_lt]
        exact h2
      simp [Rune.first,Rune.decode?,hb,hb'] at hc

lemma head?_runes_append {a b : Text} (ha : a ≠ []) (hb : ∀ y ∈ b.head?, Rune.payload? y = none) :
    (a ++ b).runes.head? = a.runes.head? := by
  obtain ⟨x,a,rfl⟩ := List.exists_cons_of_ne_nil ha
  rw [List.cons_append,Text.runes_cons,Text.runes_cons,Rune.first_append x a hb]
  rfl

/-- A layout starts with a decoded character. -/
lemma Laid.head {ls : List Shape} {t : Text} (h : Laid ls t) :
    ∀ r ∈ t.runes.head?, ∃ c, r = .char c := by
  have hgap : ∀ {gap : Text}, Blank gap → gap ≠ [] → ∀ u,
      ∀ r ∈ (gap ++ u).runes.head?, ∃ c, r = .char c := by
    intro gap hg hne u r hr
    obtain ⟨b,gap,rfl⟩ := List.exists_cons_of_ne_nil hne
    obtain ⟨x,hx,hr'⟩ := isGap_of_isBlank (hg b (by simp)) (gap ++ u)
    rw [List.cons_append,hr'] at hr
    simp only [List.head?_cons,Option.mem_def,Option.some.injEq] at hr
    subst hr
    rcases isGap_iff.mp hx with rfl | rfl | rfl | rfl <;> exact ⟨_,rfl⟩
  induction h with
  | @nil gap hg =>
    by_cases hne : gap = []
    · simp [hne]
    · simpa using hgap hg hne []
  | @cons gap rest l ls hg hl ha hr ih =>
    by_cases hne : gap = []
    · subst hne
      rw [List.nil_append,head?_runes_append (Shape.text_ne_nil hl) (payload?_of_runes_head ih)]
      exact fun r hr => (Script.Fits.head hl r hr).2
    · exact hgap hg hne _

lemma Laid.runes_append {ls : List Shape} {t : Text} (h : Laid ls t) (a : Text) :
    (a ++ t).runes = a.runes ++ t.runes :=
  Text.runes_append a (payload?_of_runes_head h.head)

/-- Lexing finds the lexemes that a text was laid out from. -/
theorem Laid.shapes? {ls : List Shape} {t : Text} (h : Laid ls t) : shapes? t = some ls := by
  induction h with
  | @nil gap hg =>
    rw [← List.append_nil gap,shapes?_blank_append hg]
    rfl
  | @cons gap rest l ls hg hl ha hr ih =>
    rw [shapes?_blank_append hg,shapes?_eq,hr.runes_append]
    have hn := nextLexeme?_append hl ha
    rw [shapesOf_append (fun r hr => (Script.Fits.head hl r hr).1) (Script.Fits.ne_nil hl) hn,
      ← shapes?_eq,ih,Text.ofRunes_runes]
    rfl

/-- Two lexemes that may touch: the first is a name, which lexing takes as long as it goes, or the
second starts with a rune that the first cannot go on with. -/
def Touching (l m : Shape) : Prop := l.kind = .name ∨ ∀ r ∈ m.text.runes.head?, l.Apart r

lemma Laid.head?_runes {l : Shape} {ls : List Shape} {t : Text} (h : Laid (l::ls) t)
    (hb : ∀ r ∈ t.runes.head?, isGap r = false) : t.runes.head? = l.text.runes.head? := by
  generalize he : l::ls = ms at h
  cases h with
  | nil => simp at he
  | @cons gap rest m ms hg hl ha hr =>
    simp only [List.cons.injEq] at he
    obtain ⟨rfl,rfl⟩ := he
    cases gap with
    | nil => exact head?_runes_append (Shape.text_ne_nil hl) (payload?_of_runes_head hr.head)
    | cons b gap =>
      obtain ⟨x,hx,hx'⟩ := isGap_of_isBlank (hg b (by simp)) (gap ++ (l.text ++ rest))
      rw [List.cons_append,hx'] at hb
      have hxf := hb x rfl
      rw [hx] at hxf
      simp at hxf

lemma Laid.isGap_of_nil {t : Text} (h : Laid [] t) : ∀ r ∈ t.runes.head?, isGap r = true := by
  cases h with
  | nil hg =>
    cases t with
    | nil => simp
    | cons b t =>
      obtain ⟨x,hx,hr⟩ := isGap_of_isBlank (hg b (by simp)) t
      rw [hr]
      simpa using hx

lemma isBlank_of_isGap {b : UInt8} {t : Text} (h : isGap (Rune.first b t) = true) :
    Text.isBlank b = true := by
  obtain ⟨more,hm⟩ := Rune.bytes_first b t
  have hc : ∀ c ∈ [' ','\t','\r','\n'], (Rune.char c).bytes = [Text.ascii c] ∧
      Text.isBlank (Text.ascii c) = true := by
    simp only [List.mem_cons,List.not_mem_nil,or_false]
    rintro c (rfl | rfl | rfl | rfl) <;> exact ⟨rfl,rfl⟩
  have hr : ∃ c ∈ [' ','\t','\r','\n'], Rune.first b t = .char c := by
    simpa using isGap_iff.mp h
  obtain ⟨c,hmem,hf⟩ := hr
  rw [hf,(hc c hmem).1,List.cons_append,List.cons.injEq] at hm
  rw [hm.1,(hc c hmem).2]

lemma Laid.fits {ls : List Shape} {t : Text} (h : Laid ls t) : ∀ l ∈ ls, l.Fits := by
  induction h with
  | nil => simp
  | cons hg hl ha hr ih =>
    intro m hm
    rcases List.mem_cons.mp hm with rfl | hm
    · exact hl
    · exact ih m hm

/-- Lexing takes one lexeme off a text that does not start with a blank, and goes on with the rest. -/
lemma shapes?_step {b : UInt8} {t : Text} {ls : List Shape} (hb : ¬ Text.isBlank b = true)
    (h : shapes? (b::t) = some ls) : ∃ k l, ∃ v : Text, ∃ ls', b::t = Text.ofRunes l ++ v ∧
      Text.runes (b::t) = l ++ v.runes ∧ Fits k l ∧
      nextLexeme? (l ++ v.runes) = some (k,l.length) ∧
      shapes? v = some ls' ∧ ls = ⟨k,Text.ofRunes l⟩::ls' := by
  obtain ⟨more,-,hr⟩ := Text.runes_cons_exists b t
  have hg : isGap (Rune.first b t) = false := by
    by_contra hg
    exact hb (isBlank_of_isGap (by simpa using hg))
  rw [shapes?_eq] at h
  cases hx : nextLexeme? (Text.runes (b::t)) with
  | none =>
    rw [hr] at hx h
    rw [shapesOf_none hg hx] at h
    simp at h
  | some found =>
    obtain ⟨k,m⟩ := found
    obtain ⟨l,rest,hs,rfl,hl⟩ := fits_of_nextLexeme? hx
    rw [hs] at hx
    rw [hs,shapesOf_append (fun r hr => (Script.Fits.head hl r hr).1) hl.ne_nil hx] at h
    obtain ⟨ls',hls,rfl⟩ := Option.map_eq_some_iff.mp h
    obtain ⟨v,hv,rfl⟩ := Text.runes_split hs
    exact ⟨k,l,v,ls',hv,hs,hl,hx,hls,rfl⟩

/-- A lexeme stands apart from the layout behind it if it was found there and may touch the next
lexeme. -/
lemma Laid.apart {l : Shape} {ls : List Shape} {t : Text} (h : Laid ls t)
    (hx : nextLexeme? (l.text.runes ++ t.runes) = some (l.kind,l.text.runes.length))
    (htouch : ∀ m ∈ ls.head?, Touching l m) : ∀ r ∈ t.runes.head?, l.Apart r := by
  intro r hr
  by_cases hg : isGap r = true
  · exact l.apart_of_isGap hg
  · by_cases hk : l.kind = .name
    · rw [hk] at hx
      rw [Shape.Apart,hk]
      exact not_continuesName_of_nextLexeme? hx r hr
    · have hh : ∀ x ∈ t.runes.head?, isGap x = false := by
        intro x hx
        rw [Option.mem_unique hx hr]
        simpa using hg
      cases ls with
      | nil => exact absurd (h.isGap_of_nil r hr) hg
      | cons m ls =>
        rw [h.head?_runes hh] at hr
        exact (htouch m rfl).resolve_left hk r hr

/-- Every text that can be lexed is a layout of its lexemes when the ones that follow each other may
touch. -/
theorem laid_of_shapes? {t : Text} {ls : List Shape} (h : shapes? t = some ls)
    (hc : ls.IsChain fun l m => l.Fits → m.Fits → Touching l m) : Laid ls t := by
  induction hn : t.length using Nat.strong_induction_on generalizing t ls with
  | _ n ih =>
    cases t with
    | nil =>
      rw [shapes?_eq,Text.runes_nil,shapesOf_nil,Option.some.injEq] at h
      subst h
      exact .nil (by simp [Blank])
    | cons b t =>
      by_cases hb : Text.isBlank b = true
      · rw [shapes?_blank hb] at h
        have hl := ih t.length (by simp [← hn]) h hc rfl
        have hblank : Blank [b] := by simpa [Blank] using hb
        exact hl.blank_append hblank
      · obtain ⟨k,l,v,ls',hv,hs,hl,hx,hls,rfl⟩ := shapes?_step hb h
        obtain ⟨hnext,hrest⟩ := List.isChain_cons.mp hc
        have hlen : v.length < n := by
          have hne : Text.ofRunes l ≠ [] := by
            obtain ⟨r,l,rfl⟩ := List.exists_cons_of_ne_nil hl.ne_nil
            simp [Rune.bytes_ne_nil]
          have hpos := List.length_pos_of_ne_nil hne
          rw [← hn,hv,List.length_append]
          omega
        have hlaid := ih v.length hlen hls hrest rfl
        have hrunes : (Text.ofRunes l).runes = l := by
          rw [hv,hlaid.runes_append] at hs
          exact List.append_cancel_right hs
        have hfit : Shape.Fits ⟨k,Text.ofRunes l⟩ := by
          rw [Shape.Fits,hrunes]
          exact hl
        rw [hv]
        refine Laid.cons_touching (l := ⟨k,Text.ofRunes l⟩) hfit ?_ hlaid
        refine hlaid.apart (by rwa [hrunes]) fun m hm => ?_
        exact hnext m hm hfit (hlaid.fits m (List.mem_of_head? hm))

lemma not_isGap_of_head {t : Text} (h : ∀ b ∈ t.head?, Text.isBlank b = false) :
    ∀ r ∈ t.runes.head?, isGap r = false := by
  cases t with
  | nil => simp
  | cons b t =>
    obtain ⟨more,-,hr⟩ := Text.runes_cons_exists b t
    rw [hr]
    simp only [List.head?_cons,Option.mem_def,Option.some.injEq,forall_eq']
    by_contra hg
    have hb := isBlank_of_isGap (by simpa using hg)
    simp [h b rfl] at hb

lemma isGap_of_blank_append {g t : Text} (hg : Blank g) (hne : g ≠ []) :
    ∀ r ∈ (g ++ t).runes.head?, isGap r = true := by
  obtain ⟨b,g,rfl⟩ := List.exists_cons_of_ne_nil hne
  obtain ⟨x,hx,hr⟩ := isGap_of_isBlank (hg b (by simp)) (g ++ t)
  rw [List.cons_append,hr]
  simpa using hx

/-- A layout that starts with no blank starts with its first lexeme. -/
lemma Laid.uncons {l : Shape} {ls : List Shape} {t : Text} (h : Laid (l::ls) t)
    (hb : ∀ b ∈ t.head?, Text.isBlank b = false) : ∃ rest, t = l.text ++ rest ∧ l.Fits ∧
      (∀ r ∈ rest.runes.head?, l.Apart r) ∧ Laid ls rest := by
  generalize he : l::ls = ms at h
  cases h with
  | nil => simp at he
  | @cons gap rest m ms hg hl ha hr =>
    simp only [List.cons.injEq] at he
    obtain ⟨rfl,rfl⟩ := he
    cases gap with
    | nil => exact ⟨rest,rfl,hl,ha,hr⟩
    | cons b gap =>
      have hbb := hb b rfl
      rw [hg b (by simp)] at hbb
      simp at hbb

/-- Two layouts one after the other, when the last lexeme of the first one ends there. -/
theorem Laid.append {ls ms : List Shape} {t u : Text} (h : Laid ls t) (hu : Laid ms u)
    (ha : ∀ l ∈ ls.getLast?, ∀ r ∈ u.runes.head?, l.Apart r) : Laid (ls ++ ms) (t ++ u) := by
  induction h with
  | nil hg => exact hu.blank_append hg
  | @cons gap rest l ls hg hl hr hrest ih =>
    have hnext : ∀ m ∈ ls.getLast?, ∀ r ∈ u.runes.head?, m.Apart r := by
      intro m hm
      refine ha m ?_
      rw [List.getLast?_cons,Option.mem_def.mp hm]
      rfl
    rw [List.append_assoc,List.append_assoc,List.cons_append]
    refine .cons hg hl ?_ (ih hnext)
    cases rest with
    | nil =>
      have hnil : ls = [] := by
        have hs := hrest.shapes?
        rw [shapes?_eq,Text.runes_nil,shapesOf_nil,Option.some.injEq] at hs
        exact hs.symm
      exact ha l (by simp [hnil])
    | cons b rest =>
      rw [head?_runes_append (by simp) (payload?_of_runes_head hu.head)]
      exact hr

/-- No letter is white space. -/
lemma not_isSpace_of_startsName {r : Rune} (h : startsName r = true) : r.isSpace = false := by
  have hdisjoint : ∀ p ∈ Text.letters, ∀ q ∈ Text.whiteSpace, p.2 < q.1 ∨ q.2 < p.1 := by
    decide +kernel
  cases r with
  | stray b => rfl
  | char c =>
    by_contra hs
    simp only [Bool.not_eq_false] at hs
    simp only [Rune.isSpace,Text.Ranges.has,List.any_eq_true] at hs
    obtain ⟨q,hq,hcq⟩ := hs
    simp only [startsName,Bool.or_eq_true,Rune.isAscii_iff,Rune.char.injEq] at h
    rcases h with rfl | h
    · revert q
      decide
    · simp only [Rune.isLetter,Text.Ranges.has,List.any_eq_true] at h
      obtain ⟨p,hp,hcp⟩ := h
      have hpq := hdisjoint p hp q hq
      simp only [Bool.and_eq_true,decide_eq_true_eq] at hcp hcq
      omega

lemma not_isSpace_of_isDigit {r : Rune} (h : r.isDigit = true) : r.isSpace = false := by
  cases r with
  | stray b => rfl
  | char c =>
    have hc := isDigit_iff.mp h
    simp only [Rune.isSpace,Text.Ranges.has,Text.whiteSpace,List.any_eq_false,Bool.and_eq_true,
      decide_eq_true_eq,List.mem_cons,List.not_mem_nil,or_false]
    rintro q (rfl | rfl | rfl | rfl | rfl | rfl | rfl | rfl | rfl | rfl) <;> simp <;> omega

lemma Fits.head_not_isSpace {k : LexemeKind} {l : List Rune} (h : Fits k l) :
    ∀ r ∈ l.head?, r.isSpace = false := by
  have hmark : ∀ c ∈ marksAndQuotes, (Rune.char c).isSpace = false := by
    simp [marksAndQuotes,marks,shortOperators,punctuationMarks,longOperators,Rune.isSpace,
      Text.Ranges.has,Text.whiteSpace]
  intro r hr
  rcases h.head_cases r hr with ⟨-,hs⟩ | ⟨-,hd⟩ | ⟨c,hc,rfl⟩
  · exact not_isSpace_of_startsName hs
  · exact not_isSpace_of_isDigit hd
  · exact hmark c hc

/-- A layout with a lexeme in it is not blank. -/
lemma Laid.not_blankOnly {l : Shape} {ls : List Shape} {t : Text} (h : Laid (l::ls) t) :
    Text.blankOnly t = false := by
  generalize hm : l::ls = ms at h
  cases h with
  | nil => simp at hm
  | @cons gap rest m ms hg hl ha hr =>
    by_contra hb
    simp only [Bool.not_eq_false] at hb
    have hx : Laid (m::ms) (m.text ++ rest) := .cons_touching hl ha hr
    obtain ⟨r,tail,hrs⟩ := List.exists_cons_of_ne_nil (Script.Fits.ne_nil hl)
    have hs := Script.Fits.head_not_isSpace hl r (by rw [hrs]; rfl)
    rw [Text.blankOnly_iff,Text.IsSpace,hx.runes_append,hr.runes_append,hrs] at hb
    rw [hb r (by simp)] at hs
    simp at hs

lemma lexFrom_skip (pos : Text.Position) (as rs : List Rune) :
    lexFrom pos as.length (as ++ rs) = lexFrom (pos.afterAll as) 0 rs := by
  induction as generalizing pos with
  | nil => rfl
  | cons a as ih => exact ih (pos.after a)

/-- A lexeme is found where it stands apart from what follows it. -/
lemma lexFrom_lexeme {l : Shape} (hl : l.Fits) {t : Text}
    (ht : ∀ y ∈ t.head?, Rune.payload? y = none) (ha : ∀ r ∈ t.runes.head?, l.Apart r)
    (pos : Text.Position) : lexFrom pos 0 (l.text ++ t).runes =
      (lexFrom (pos.afterAll l.text.runes) 0 t.runes).map (⟨l.kind,l.text,pos⟩ :: ·) := by
  have hnext := nextLexeme?_append hl ha
  have hgap := fun r hr => (Script.Fits.head hl r hr).1
  have htext := Text.ofRunes_runes l.text
  rw [Text.runes_append _ ht]
  generalize l.text.runes = rs at hnext hgap htext
  cases rs with
  | nil =>
    rw [Text.ofRunes_nil] at htext
    exact absurd htext.symm (Shape.text_ne_nil hl)
  | cons r rs =>
    have hskip := lexFrom_skip (pos.after r) rs t.runes
    rw [List.cons_append,lexFrom,if_neg (by simpa using hgap r rfl)]
    rw [List.cons_append] at hnext
    simp only [hnext,List.length_cons,Nat.add_sub_cancel,hskip]
    rw [← List.cons_append,← List.length_cons,List.take_left,htext]
    rfl

end CellScript.Script
