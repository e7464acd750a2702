import Mathlib
import CellScript.Proofs.Script.Layout
import CellScript.Proofs.Script.Literal

/-! Places inside and outside of string literals, byte by byte. The bytes of a layout that stand
inside of a literal are the ones of its string lexemes. -/
namespace CellScript.Script

/-- Where a byte stands: among code, inside a literal, or behind a backslash in a literal. -/
inductive Spot where
  | code
  | literal (quote : UInt8)
  | escape (quote : UInt8)
  deriving DecidableEq

namespace Spot

def step : Spot → UInt8 → Spot
  | code,b => if Text.isQuote b then literal b else code
  | literal q,b => if b = Text.ascii '\\' then escape q else if b = q then code else literal q
  | escape q,_ => literal q

def after (s : Spot) (t : Text) : Spot := t.foldl step s

/-- A text that leads to code, and only with its last byte. -/
def Closes : Spot → Text → Prop
  | s,[] => s = code
  | s,b::t => s ≠ code ∧ Closes (s.step b) t

@[simp] lemma after_nil (s : Spot) : s.after [] = s := rfl

@[simp] lemma after_cons (s : Spot) (b : UInt8) (t : Text) :
    s.after (b::t) = (s.step b).after t := rfl

@[simp] lemma after_append (s : Spot) (t u : Text) : s.after (t ++ u) = (s.after t).after u :=
  List.foldl_append

lemma step_code {b : UInt8} (h : Text.isQuote b = false) : code.step b = code := by
  simp [step,h]

lemma after_code {t : Text} (h : ∀ b ∈ t, Text.isQuote b = false) : code.after t = code := by
  induction t with
  | nil => rfl
  | cons b t ih =>
    rw [after_cons,step_code (h b (by simp)),ih fun c hc => h c (by simp [hc])]

lemma Closes.after {s : Spot} {t : Text} (h : s.Closes t) : s.after t = code := by
  induction t generalizing s with
  | nil => exact h
  | cons b t ih => exact ih h.2

lemma Closes.after_ne {s : Spot} {p u : Text} (h : s.Closes (p ++ u)) (hu : u ≠ []) :
    s.after p ≠ code := by
  induction p generalizing s with
  | nil =>
    obtain ⟨b,u,rfl⟩ := List.exists_cons_of_ne_nil hu
    exact h.1
  | cons b p ih => exact ih h.2

/-- Bytes of other characters stay inside a literal. -/
lemma after_literal {q : UInt8} {t : Text} (h : ∀ b ∈ t, b ≠ Text.ascii '\\' ∧ b ≠ q) :
    (literal q).after t = literal q := by
  induction t with
  | nil => rfl
  | cons b t ih =>
    obtain ⟨h1,h2⟩ := h b (by simp)
    rw [after_cons,step,if_neg h1,if_neg h2,ih fun c hc => h c (by simp [hc])]

lemma closes_literal {q : UInt8} {t u : Text} (h : ∀ b ∈ t, b ≠ Text.ascii '\\' ∧ b ≠ q)
    (hu : (literal q).Closes u) : (literal q).Closes (t ++ u) := by
  induction t with
  | nil => exact hu
  | cons b t ih =>
    obtain ⟨h1,h2⟩ := h b (by simp)
    refine ⟨by simp,?_⟩
    rw [step,if_neg h1,if_neg h2]
    exact ih fun c hc => h c (by simp [hc])

end Spot

lemma Shape.Fits.madeOf {l : Shape} (h : l.Fits) {c : Char} (hc : c.toNat < 0x80)
    (hb : Text.ascii c ∈ l.text) : MadeOf l.kind (.char c) :=
  Script.Fits.madeOf h _ (Text.mem_runes_of_mem hc hb)

def blanksAndQuotes : List Char := [' ','\t','\n','\r','"','\'']

lemma mem_blanksAndQuotes {b : UInt8} (h : Text.isBlank b = true ∨ Text.isQuote b = true) :
    ∃ c ∈ blanksAndQuotes, b = Text.ascii c := by
  simpa [Text.isBlank,Text.isQuote,blanksAndQuotes,or_assoc] using h

/-- Blanks and quotes stand in no lexeme that is not a string. -/
lemma Shape.Fits.plain {l : Shape} (h : l.Fits) (hk : l.kind ≠ .string) :
    ∀ b ∈ l.text, Text.isBlank b = false ∧ Text.isQuote b = false := by
  have hascii : ∀ c ∈ blanksAndQuotes, c.toNat < 128 ∧ c ∉ marks ∧ ¬ (c = '_' ∨
      (65 ≤ c.toNat ∧ c.toNat ≤ 90) ∨ (97 ≤ c.toNat ∧ c.toNat ≤ 122) ∨
      (48 ≤ c.toNat ∧ c.toNat ≤ 57)) := by
    simp [blanksAndQuotes,marks,shortOperators,punctuationMarks,longOperators]
  intro b hb
  by_contra hn
  have hbq : Text.isBlank b = true ∨ Text.isQuote b = true := by
    cases hx : Text.isBlank b with
    | true => exact Or.inl rfl
    | false => simpa [hx] using hn
  obtain ⟨c,hc,rfl⟩ := mem_blanksAndQuotes hbq
  obtain ⟨hlt,hm,hw⟩ := hascii c hc
  rcases (h.madeOf hlt hb).word_or_mark hk with hr | hr
  · exact hw ((continuesName_of_lt hlt).mp hr)
  · exact hm hr

lemma Shape.Fits.head_not_blank {l : Shape} (h : l.Fits) :
    ∀ b ∈ l.text.head?, Text.isBlank b = false := by
  intro b hb
  by_contra hn
  cases ht : l.text with
  | nil => simp [ht] at hb
  | cons c t =>
    rw [ht,List.head?_cons,Option.mem_def,Option.some.injEq] at hb
    subst hb
    obtain ⟨r,hr,hrs⟩ := isGap_of_isBlank (by simpa using hn) t
    have hg := (Script.Fits.head h r (by rw [ht,hrs]; rfl)).1
    rw [hr] at hg
    simp at hg

/-- What nothing cuts short leads to the quote behind it, and with it back to code. -/
lemma Enclosed.closes {q : UInt8} (hq : q ≠ Text.ascii '\\') {escapes : UInt8 → Prop} {t : Text}
    (h : Enclosed (Text.ascii '\\') q escapes t) : (Spot.literal q).Closes (t ++ [q]) := by
  induction h with
  | nil => exact ⟨by simp,by simp [Spot.step,Spot.Closes,hq]⟩
  | plain hs hne _ ih =>
    refine ⟨by simp,?_⟩
    rwa [Spot.step,if_neg hs,if_neg hne]
  | escape _ _ ih =>
    refine ⟨by simp,?_⟩
    rw [Spot.step,if_pos rfl]
    exact ⟨by simp,ih⟩

/-- A string lexeme is a quote and a text that leads from behind it back to code. -/
lemma Shape.Fits.closes {l : Shape} (h : l.Fits) (hk : l.kind = .string) :
    ∃ q body, l.text = q::body ∧ Text.isQuote q = true ∧ (Spot.literal q).Closes body := by
  rw [Shape.Fits,hk] at h
  obtain ⟨q,body,hq,ht,hb⟩ := fits_string_iff.mp h
  exact ⟨q,body ++ [q],ht,hq,hb.closes (ne_slash_of_isQuote hq)⟩

lemma not_isQuote_of_isBlank {b : UInt8} (h : Text.isBlank b = true) : Text.isQuote b = false := by
  simp only [Text.isBlank,Bool.or_eq_true,beq_iff_eq,or_assoc] at h
  rcases h with rfl | rfl | rfl | rfl <;> rfl

lemma Spot.after_blank {gap : Text} (h : Blank gap) : code.after gap = code := by
  exact after_code fun b hb => not_isQuote_of_isBlank (h b hb)

lemma Shape.Fits.after {l : Shape} (h : l.Fits) : Spot.code.after l.text = .code := by
  by_cases hk : l.kind = .string
  · obtain ⟨q,body,ht,hq,hc⟩ := h.closes hk
    rw [ht,Spot.after_cons,Spot.step,if_pos hq,hc.after]
  · exact Spot.after_code fun b hb => (h.plain hk b hb).2

/-- Every literal of a layout is closed. -/
lemma Laid.after {ls : List Shape} {t : Text} (h : Laid ls t) : Spot.code.after t = .code := by
  induction h with
  | nil hg => exact Spot.after_blank hg
  | cons hg hl ha hr ih =>
    rw [Spot.after_append,Spot.after_append,Spot.after_blank hg,hl.after,ih]

lemma Shape.Fits.spot {l : Shape} (h : l.Fits) {p u : Text} (ht : l.text = p ++ u)
    (hp : Spot.code.after p ≠ .code) : l.kind = .string := by
  by_contra hk
  refine hp (Spot.after_code fun b hb => (h.plain hk b ?_).2)
  simp [ht,hb]

/-- In a string lexeme only the quote at its front stands among code. -/
lemma Shape.Fits.spot_ne_code {l : Shape} (h : l.Fits) (hk : l.kind = .string) {p u : Text}
    {b : UInt8} (ht : l.text = p ++ b::u) (hb : Text.isQuote b = false) :
    Spot.code.after p ≠ .code := by
  obtain ⟨q,body,htext,hq,hclose⟩ := h.closes hk
  rw [htext] at ht
  cases p with
  | nil =>
    rw [List.nil_append,List.cons.injEq] at ht
    rw [← ht.1,hq] at hb
    simp at hb
  | cons y p =>
    rw [List.cons_append,List.cons.injEq] at ht
    obtain ⟨rfl,rfl⟩ := ht
    rw [Spot.after_cons,Spot.step,if_pos hq]
    exact hclose.after_ne (by simp)

/-- A byte of a layout that does not stand among code belongs to a string lexeme. -/
theorem Laid.mem_string {ls : List Shape} {t p u : Text} {b : UInt8} (h : Laid ls t)
    (ht : t = p ++ b::u) (hp : Spot.code.after p ≠ .code) :
    ∃ l ∈ ls, l.kind = .string ∧ b ∈ l.text := by
  induction h generalizing p with
  | @nil gap hg =>
    refine absurd (Spot.after_blank fun c hc => hg c ?_) hp
    simp [ht,hc]
  | @cons gap rest l ls hg hl ha hr ih =>
    rcases List.append_eq_append_iff.mp ht with ⟨q,rfl,hrest⟩ | ⟨q,rfl,hrest⟩
    · rw [Spot.after_append,Spot.after_blank hg] at hp
      rcases List.append_eq_append_iff.mp hrest with ⟨v,rfl,hv⟩ | ⟨v,hv,hvu⟩
      · rw [Spot.after_append,hl.after] at hp
        obtain ⟨m,hm,hmk,hmb⟩ := ih hv hp
        exact ⟨m,by simp [hm],hmk,hmb⟩
      · cases v with
        | nil =>
          rw [List.append_nil] at hv
          rw [← hv,hl.after] at hp
          exact absurd rfl hp
        | cons c v =>
          rw [List.cons_append,List.cons.injEq] at hvu
          exact ⟨l,by simp,hl.spot hv hp,by simp [hv,hvu.1]⟩
    · exact absurd (Spot.after_blank fun c hc => hg c (by simp [hc])) hp

/-- Code in which no literal holds a closing bracket. -/
def Bracketless (code : Text) : Prop :=
  ∀ ls, lex? code = some ls → ∀ l ∈ ls, l.kind = .string → Text.ascii ']' ∉ l.text

instance : DecidablePred Bracketless := fun code =>
  decidable_of_iff ((lex? code).all fun ls =>
      ls.all fun l => l.kind != .string || !l.text.contains (Text.ascii ']')) <| by
    simp [Bracketless,Option.all_eq_true,imp_iff_not_or]

def openingBracket : Shape := ⟨.punctuation,Text.ofString "["⟩

/-- A mark stands in no lexeme but strings and marks. The point alone may stand in numbers. -/
lemma MadeOf.punctuation {k : LexemeKind} {c : Char} (h : MadeOf k (.char c)) (hk : k ≠ .string)
    (hc : c ∈ punctuationMarks) (hpoint : c ≠ '.') : k = .punctuation := by
  have hmem : c ∈ marksAndQuotes := by simp [marksAndQuotes,marks,hc]
  have hword := not_continuesName_of_mark c hmem
  have hdigit := not_isDigit_of_mark c hmem
  cases k with
  | float =>
    have hmark : ∀ c ∈ punctuationMarks, c ∈ ['.','e','E','-','+'] → c = '.' := by
      simp [punctuationMarks]
    rcases h with h | ⟨d,hd,h⟩
    · simp [hdigit] at h
    · rw [Rune.char.injEq] at h
      exact absurd (hmark c hc (h ▸ hd)) hpoint
  | int => simp [MadeOf,hdigit] at h
  | string => exact absurd rfl hk
  | name => simp [MadeOf,hword] at h
  | operator =>
    have hmark : ∀ c ∈ punctuationMarks,
        c ∉ shortOperators ++ longOperators.map (·.1) ++ longOperators.map (·.2) := by
      simp [punctuationMarks,shortOperators,longOperators]
    obtain ⟨d,hd,h⟩ := h
    rw [Rune.char.injEq] at h
    exact absurd (h ▸ hd) (hmark c hc)
  | punctuation => rfl

/-- A mark in a lexeme other than a string is all of it, unless it is the point of a number. -/
lemma Shape.Fits.eq_mark {l : Shape} (h : l.Fits) (hk : l.kind ≠ .string) {c : Char}
    (hc : c ∈ punctuationMarks) (hpoint : c ≠ '.') (hb : Text.ascii c ∈ l.text) :
    l = ⟨.punctuation,[Text.ascii c]⟩ := by
  have hlt : ∀ c ∈ punctuationMarks, c.toNat < 0x80 := by simp [punctuationMarks]
  have hkind := (h.madeOf (hlt c hc) hb).punctuation hk hc hpoint
  have hr := Text.mem_runes_of_mem (hlt c hc) hb
  obtain ⟨kind,text⟩ := l
  subst hkind
  obtain ⟨d,-,hl⟩ := h
  rw [hl,List.mem_singleton,Rune.char.injEq] at hr
  subst hr
  refine congrArg (Shape.mk .punctuation) (Text.runes_injective (hl.trans ?_))
  rw [Text.runes_ascii (hlt c hc)]
  rfl

lemma Shape.Fits.eq_openingBracket {l : Shape} (h : l.Fits) (hk : l.kind ≠ .string)
    (hb : Text.ascii '[' ∈ l.text) : l = openingBracket :=
  (h.eq_mark hk (by decide) (by decide) hb).trans (by decide)

/-- A layout that does not start with a blank starts with its first lexeme. -/
lemma Laid.uncons_byte {ls : List Shape} {b : UInt8} {t : Text} (h : Laid ls (b::t))
    (hb : Text.isBlank b = false) : ∃ l ms w rest, ls = l::ms ∧ l.text = b::w ∧ t = w ++ rest ∧
      l.Fits ∧ Laid ms rest := by
  cases ls with
  | nil =>
    cases h with
    | nil hg =>
      rw [hg b (by simp)] at hb
      simp at hb
  | cons l ms =>
    obtain ⟨rest,ht,hf,-,hr⟩ := h.uncons (by simpa using hb)
    obtain ⟨c,w,hw⟩ := List.exists_cons_of_ne_nil (Shape.text_ne_nil hf)
    rw [hw,List.cons_append,List.cons.injEq] at ht
    exact ⟨l,ms,w,rest,rfl,by rw [hw,ht.1],ht.2,hf,hr⟩

/-- A mark at the front of a layout is its first lexeme. -/
lemma Laid.uncons_mark {ls : List Shape} {c : Char} {t : Text} (h : Laid ls (Text.ascii c::t))
    (hc : c ∈ punctuationMarks) (hpoint : c ≠ '.') :
    ∃ ms, ls = ⟨.punctuation,[Text.ascii c]⟩::ms ∧ Laid ms t := by
  have hplain : ∀ c ∈ punctuationMarks,
      Text.isBlank (Text.ascii c) = false ∧ Text.isQuote (Text.ascii c) = false := by
    simp only [punctuationMarks,List.mem_cons,List.not_mem_nil,or_false]
    rintro c (rfl | rfl | rfl | rfl | rfl | rfl | rfl | rfl) <;> exact ⟨rfl,rfl⟩
  obtain ⟨hblank,hquote⟩ := hplain c hc
  obtain ⟨l,ms,w,rest,rfl,hw,rfl,hf,hr⟩ := h.uncons_byte hblank
  have hk : l.kind ≠ .string := fun hk => hf.spot_ne_code (p := []) hk hw hquote rfl
  obtain rfl := hf.eq_mark hk hc hpoint (by simp [hw])
  obtain rfl : w = [] := by simpa using hw.symm
  exact ⟨ms,rfl,hr⟩

/-- An opening bracket among the code of a layout is a lexeme of its own. -/
theorem Laid.split_bracket {ls : List Shape} {t p u : Text} (h : Laid ls t)
    (ht : t = p ++ Text.ascii '['::u) (hp : Spot.code.after p = .code) :
    ∃ ks ms, ls = ks ++ openingBracket::ms ∧ Laid ms u := by
  induction h generalizing p with
  | @nil gap hg =>
    have hb := hg (Text.ascii '[') (by simp [ht])
    exact absurd hb (by decide)
  | @cons gap rest l ls hg hl ha hr ih =>
    obtain ⟨q,rfl,hrest⟩ := hg.split (by decide) ht
    rw [Spot.after_append,Spot.after_blank hg] at hp
    rcases List.append_eq_append_iff.mp hrest with ⟨v,rfl,hv⟩ | ⟨v,hv,hvu⟩
    · rw [Spot.after_append,hl.after] at hp
      obtain ⟨ks,ms,rfl,hms⟩ := ih hv hp
      exact ⟨l::ks,ms,rfl,hms⟩
    · cases v with
      | nil =>
        obtain ⟨ks,ms,rfl,hms⟩ := ih (p := []) (by simpa using hvu.symm) rfl
        exact ⟨l::ks,ms,rfl,hms⟩
      | cons c v =>
        rw [List.cons_append,List.cons.injEq] at hvu
        obtain ⟨rfl,rfl⟩ := hvu
        have hk : l.kind ≠ .string := fun hk => hl.spot_ne_code hk hv (by decide) hp
        obtain rfl := hl.eq_openingBracket hk (by simp [hv])
        have hone : openingBracket.text = [Text.ascii '['] := by decide
        rw [hone,List.singleton_eq_append_iff] at hv
        rcases hv with ⟨-,hv⟩ | ⟨-,hv⟩
        · rw [List.cons.injEq] at hv
          obtain ⟨-,rfl⟩ := hv
          exact ⟨[],ls,rfl,hr⟩
        · simp at hv

lemma Laid.subset {ls : List Shape} {t : Text} (h : Laid ls t) : ∀ l ∈ ls, l.text ⊆ t := by
  induction h with
  | nil => simp
  | @cons gap rest l ls hg hl ha hr ih =>
    intro m hm b hb
    rcases List.mem_cons.mp hm with rfl | hm
    · simp [hb]
    · simp [ih m hm hb]

end CellScript.Script
