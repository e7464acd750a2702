import Mathlib
import CellScript.Proofs.Text.Runes
import CellScript.Script.Lexeme

/-! The lexeme at the front of a text. It fits its kind on its own, and it is found again in front
of every other text that stands apart from it. -/
namespace CellScript

namespace Rune

@[simp] lemma isAscii_iff {r : Rune} {c : Char} : r.isAscii c = true ↔ r = .char c := by
  simp [isAscii]

end Rune

namespace Script

def Digits (l : List Rune) : Prop := ∀ r ∈ l, r.isDigit = true

def Exponent (l : List Rune) : Prop :=
  ∃ e sign ds, l = e::(sign ++ ds) ∧ (e = .char 'e' ∨ e = .char 'E') ∧
    (sign = [] ∨ sign = [.char '-'] ∨ sign = [.char '+']) ∧ ds ≠ [] ∧ Digits ds

/-- The runes that make up a lexeme of a kind. -/
def Fits : LexemeKind → List Rune → Prop
  | .float,l => ∃ d p x, Digits d ∧ Digits p ∧
      ((l = d ++ .char '.'::(p ++ x) ∧ (d ≠ [] ∨ p ≠ []) ∧ (x = [] ∨ Exponent x)) ∨
        (l = d ++ x ∧ d ≠ [] ∧ Exponent x))
  | .int,l => l ≠ [] ∧ Digits l
  | .string,l => ∃ q body, l = q::body ∧ (q = .char '"' ∨ q = .char '\'') ∧
      stringRest? q body = some body.length
  | .name,l => ∃ r rest, l = r::rest ∧ startsName r = true ∧ ∀ s ∈ rest, continuesName s = true
  | .operator,l => (∃ c ∈ shortOperators, l = [.char c]) ∨
      ∃ op ∈ longOperators, l = [.char op.1,.char op.2]
  | .punctuation,l => ∃ c ∈ punctuationMarks, l = [.char c]

/-- Runes in front of a rest, as many as a number says, fit a kind. -/
def FrontFits (k : LexemeKind) (rs : List Rune) (n : ℕ) : Prop :=
  ∃ l rest, rs = l ++ rest ∧ n = l.length ∧ Fits k l

/-- A rune that cannot go on with a lexeme of a kind right before it. -/
def Apart : LexemeKind → List Rune → Rune → Prop
  | .float,_,r | .int,_,r => r.isDigit = false ∧ r ≠ .char '.' ∧ r ≠ .char 'e' ∧ r ≠ .char 'E'
  | .string,_,_ => True
  | .name,_,r => continuesName r = false
  | .operator,l,r => ∀ op ∈ longOperators, l = [.char op.1] → r ≠ .char op.2
  | .punctuation,l,r => l = [.char '.'] → r.isDigit = false

/-- The characters of operators and punctuation. -/
def marks : List Char :=
  shortOperators ++ punctuationMarks ++ longOperators.map (·.1) ++ longOperators.map (·.2)

/-- The characters that start the other lexemes but names and numbers. -/
def marksAndQuotes : List Char := '"' :: '\'' :: marks

lemma ranges_has_of_lt {ranges : Text.Ranges} {k bound n : ℕ}
    (h : (ranges.drop k).all (fun r => bound ≤ r.1) = true) (hn : n < bound) :
    ranges.has n = Text.Ranges.has (ranges.take k) n := by
  have hd : Text.Ranges.has (ranges.drop k) n = false := by
    simp only [Text.Ranges.has,List.any_eq_false]
    intro r hr
    have hb : bound ≤ r.1 := by simpa using List.all_eq_true.mp h r hr
    simp
    omega
  conv_lhs => rw [← List.take_append_drop k ranges]
  simp only [Text.Ranges.has,List.any_append] at hd ⊢
  rw [hd,Bool.or_false]

lemma letters_has_ascii {n : ℕ} (hn : n < 128) :
    Text.letters.has n = ((65 ≤ n && n ≤ 90) || (97 ≤ n && n ≤ 122)) := by
  have hrest : (Text.letters.drop 2).all (fun r => 128 ≤ r.1) = true := by decide +kernel
  rw [ranges_has_of_lt hrest hn]
  have ht : Text.letters.take 2 = [(65,90),(97,122)] := by decide +kernel
  simp [ht,Text.Ranges.has]

lemma numerals_has_ascii {n : ℕ} (hn : n < 128) : Text.numerals.has n = (48 ≤ n && n ≤ 57) := by
  have hrest : (Text.numerals.drop 1).all (fun r => 128 ≤ r.1) = true := by decide +kernel
  rw [ranges_has_of_lt hrest hn]
  have ht : Text.numerals.take 1 = [(48,57)] := by decide +kernel
  simp [ht,Text.Ranges.has]

/-- Among ASCII characters a name goes on with letters, digits and the underscore. -/
lemma continuesName_of_lt {c : Char} (h : c.toNat < 128) :
    continuesName (.char c) = true ↔ c = '_' ∨ (65 ≤ c.toNat ∧ c.toNat ≤ 90) ∨
      (97 ≤ c.toNat ∧ c.toNat ≤ 122) ∨ (48 ≤ c.toNat ∧ c.toNat ≤ 57) := by
  simp [continuesName,startsName,Rune.isLetter,Rune.isNumeral,letters_has_ascii h,
    numerals_has_ascii h]
  tauto

lemma startsName_of_lt {c : Char} (h : c.toNat < 128) :
    startsName (.char c) = true ↔ c = '_' ∨ (65 ≤ c.toNat ∧ c.toNat ≤ 90) ∨
      (97 ≤ c.toNat ∧ c.toNat ≤ 122) := by
  simp [startsName,Rune.isLetter,letters_has_ascii h]

lemma isDigit_iff {c : Char} : (Rune.char c).isDigit = true ↔ 48 ≤ c.toNat ∧ c.toNat ≤ 57 := by
  simp [Rune.isDigit,Char.le_def,UInt32.le_iff_toNat_le]

lemma continuesName_of_startsName {r : Rune} (h : startsName r = true) :
    continuesName r = true := by
  simp [continuesName,h]

lemma continuesName_of_isDigit {r : Rune} (h : r.isDigit = true) : continuesName r = true := by
  cases r with
  | char c =>
    have hc := isDigit_iff.mp h
    exact (continuesName_of_lt (by omega)).mpr (by omega)
  | stray b => simp [Rune.isDigit] at h

lemma not_isDigit_of_startsName {r : Rune} (h : startsName r = true) : r.isDigit = false := by
  cases r with
  | char c =>
    by_contra hd
    have hc := isDigit_iff.mp (by simpa using hd)
    have hs := (startsName_of_lt (by omega)).mp h
    rcases hs with rfl | hs | hs
    · revert hc
      decide
    · omega
    · omega
  | stray b => rfl

/-- No name goes on with a mark or a quote. -/
lemma not_continuesName_of_mark : ∀ c ∈ marksAndQuotes, continuesName (.char c) = false := by
  have h : ∀ c ∈ marksAndQuotes, c.toNat < 128 ∧ ¬ (c = '_' ∨ (65 ≤ c.toNat ∧ c.toNat ≤ 90) ∨
      (97 ≤ c.toNat ∧ c.toNat ≤ 122) ∨ (48 ≤ c.toNat ∧ c.toNat ≤ 57)) := by
    simp [marksAndQuotes,marks,shortOperators,punctuationMarks,longOperators]
  intro c hc
  simpa using mt (continuesName_of_lt (h c hc).1).mp (h c hc).2

lemma not_startsName_of_mark : ∀ c ∈ marksAndQuotes, startsName (.char c) = false := by
  intro c hc
  simpa [not_continuesName_of_mark c hc] using mt (continuesName_of_startsName (r := .char c))

lemma not_isDigit_of_mark : ∀ c ∈ marksAndQuotes, (Rune.char c).isDigit = false := by
  intro c hc
  simpa [not_continuesName_of_mark c hc] using mt (continuesName_of_isDigit (r := .char c))

/-- The runes that lexemes of a kind are made of. -/
def MadeOf : LexemeKind → Rune → Prop
  | .float,r => r.isDigit = true ∨ ∃ c ∈ ['.','e','E','-','+'], r = .char c
  | .int,r => r.isDigit = true
  | .string,_ => True
  | .name,r => continuesName r = true
  | .operator,r => ∃ c ∈ shortOperators ++ longOperators.map (·.1) ++ longOperators.map (·.2),
      r = .char c
  | .punctuation,r => ∃ c ∈ punctuationMarks, r = .char c

lemma Digits.madeOf {d : List Rune} (h : Digits d) : ∀ r ∈ d, MadeOf .float r :=
  fun r hr => Or.inl (h r hr)

lemma Exponent.madeOf {x : List Rune} (h : Exponent x) : ∀ r ∈ x, MadeOf .float r := by
  obtain ⟨e,sign,ds,rfl,he,hs,-,hd⟩ := h
  intro r hr
  simp only [List.mem_cons,List.mem_append] at hr
  rcases hr with rfl | hr | hr
  · rcases he with rfl | rfl
    · exact Or.inr ⟨'e',by decide,rfl⟩
    · exact Or.inr ⟨'E',by decide,rfl⟩
  · rcases hs with rfl | rfl | rfl
    · simp at hr
    · exact Or.inr ⟨'-',by decide,List.mem_singleton.mp hr⟩
    · exact Or.inr ⟨'+',by decide,List.mem_singleton.mp hr⟩
  · exact hd.madeOf r hr

lemma Fits.madeOf {k : LexemeKind} {l : List Rune} (h : Fits k l) : ∀ r ∈ l, MadeOf k r := by
  intro r hr
  cases k with
  | float =>
    obtain ⟨d,p,x,hd,hp,⟨rfl,-,hx⟩ | ⟨rfl,-,hx⟩⟩ := h
    · simp only [List.mem_append,List.mem_cons] at hr
      rcases hr with hr | rfl | hr | hr
      · exact hd.madeOf r hr
      · exact Or.inr ⟨'.',by decide,rfl⟩
      · exact hp.madeOf r hr
      · rcases hx with rfl | hx
        · simp at hr
        · exact hx.madeOf r hr
    · rcases List.mem_append.mp hr with hr | hr
      · exact hd.madeOf r hr
      · exact hx.madeOf r hr
  | int => exact h.2 r hr
  | string => trivial
  | name =>
    obtain ⟨x,rest,rfl,hx,hrest⟩ := h
    rcases List.mem_cons.mp hr with rfl | hr
    · exact continuesName_of_startsName hx
    · exact hrest r hr
  | operator =>
    rcases h with ⟨c,hc,rfl⟩ | ⟨op,hop,rfl⟩
    · exact ⟨c,by simp only [List.mem_append,hc,true_or],List.mem_singleton.mp hr⟩
    · simp only [List.mem_cons,List.not_mem_nil,or_false] at hr
      rcases hr with rfl | rfl
      · exact ⟨op.1,by simp only [List.mem_append,List.mem_map_of_mem hop,or_true,true_or],rfl⟩
      · exact ⟨op.2,by simp only [List.mem_append,List.mem_map_of_mem hop,or_true],rfl⟩
  | punctuation =>
    obtain ⟨c,hc,rfl⟩ := h
    exact ⟨c,hc,List.mem_singleton.mp hr⟩

/-- Lexemes other than strings are made of names, digits and marks. -/
lemma MadeOf.word_or_mark {k : LexemeKind} {c : Char} (h : MadeOf k (.char c)) (hk : k ≠ .string) :
    continuesName (.char c) = true ∨ c ∈ marks := by
  cases k with
  | float =>
    rcases h with h | ⟨d,hd,h⟩
    · exact Or.inl (continuesName_of_isDigit h)
    · have hall : ∀ d ∈ ['.','e','E','-','+'], continuesName (.char d) = true ∨ d ∈ marks := by
        have hword : ∀ d ∈ ['e','E'], continuesName (.char d) = true := by
          simp [continuesName_of_lt]
        simp [hword,marks,shortOperators,punctuationMarks]
      rw [Rune.char.injEq] at h
      exact h ▸ hall d hd
  | int => exact Or.inl (continuesName_of_isDigit h)
  | string => exact absurd rfl hk
  | name => exact Or.inl h
  | operator =>
    obtain ⟨d,hd,h⟩ := h
    rw [Rune.char.injEq] at h
    simp only [List.mem_append] at hd
    subst h
    right
    simp only [marks,List.mem_append]
    tauto
  | punctuation =>
    obtain ⟨d,hd,h⟩ := h
    rw [Rune.char.injEq] at h
    subst h
    simp [marks,hd]

lemma takeWhile_append_left {α : Type} {p : α → Bool} {a b : List α} (ha : ∀ r ∈ a, p r = true)
    (hb : ∀ r ∈ b.head?, p r = false) : (a ++ b).takeWhile p = a := by
  rw [List.takeWhile_append_of_pos ha]
  cases b with
  | nil => simp
  | cons r b => simp [hb r rfl]

lemma digitRun_append {a b : List Rune} (ha : Digits a) (hb : ∀ r ∈ b.head?, r.isDigit = false) :
    digitRun (a ++ b) = a.length := by
  rw [digitRun,takeWhile_append_left ha hb]

/-- The digits at the front of some runes and what stands behind them. -/
lemma exists_digits (rs : List Rune) : ∃ d rest, rs = d ++ rest ∧ Digits d ∧
    (∀ r ∈ rest.head?, r.isDigit = false) ∧ digitRun rs = d.length := by
  refine ⟨rs.takeWhile Rune.isDigit,rs.dropWhile Rune.isDigit,?_,?_,?_,rfl⟩
  · exact List.takeWhile_append_dropWhile.symm
  · intro r hr
    exact List.mem_takeWhile_imp hr
  · intro r hr
    have hn := List.head?_dropWhile_not Rune.isDigit rs
    rw [Option.mem_def.mp hr] at hn
    simpa using hn

lemma exponentLength_of_head {rs : List Rune}
    (h : ∀ r ∈ rs.head?, r ≠ .char 'e' ∧ r ≠ .char 'E') : exponentLength rs = 0 := by
  cases rs with
  | nil => rfl
  | cons r rest =>
    obtain ⟨he,hE⟩ := h r rfl
    simp [exponentLength,Rune.isAscii,he,hE]

lemma exponentLength_append {x rest : List Rune} (hx : Exponent x)
    (h : ∀ r ∈ rest.head?, r.isDigit = false) : exponentLength (x ++ rest) = x.length := by
  obtain ⟨e,sign,ds,rfl,he,hs,hne,hd⟩ := hx
  obtain ⟨d,ds,rfl⟩ := List.exists_cons_of_ne_nil hne
  have hr : digitRun (d::ds ++ rest) = (d::ds).length := digitRun_append hd h
  have hd0 : d.isDigit = true := hd d (by simp)
  have hm : d ≠ .char '-' ∧ d ≠ .char '+' := by
    constructor <;> rintro rfl <;> revert hd0 <;> decide
  have he' : (e.isAscii 'e' || e.isAscii 'E') = true := by simpa using he
  simp only [exponentLength,List.cons_append,he',if_true]
  rcases hs with rfl | rfl | rfl
  · simp only [List.nil_append,List.cons_append] at hr ⊢
    simp [Rune.isAscii,hm.1,hm.2,hr]
    omega
  · simp only [List.cons_append,List.nil_append] at hr ⊢
    simp [Rune.isAscii,hr]
    omega
  · simp only [List.cons_append,List.nil_append] at hr ⊢
    simp [Rune.isAscii,hr]
    omega

/-- What the length of an exponent measures. -/
lemma exponentLength_cases (rs : List Rune) : exponentLength rs = 0 ∨
    ∃ x rest, rs = x ++ rest ∧ Exponent x ∧ exponentLength rs = x.length := by
  cases rs with
  | nil => exact Or.inl rfl
  | cons e rest =>
    by_cases he : (e.isAscii 'e' || e.isAscii 'E') = true
    · have hs : ∃ sign tail, rest = sign ++ tail ∧
          (sign = [] ∨ sign = [.char '-'] ∨ sign = [.char '+']) ∧
          exponentLength (e::rest) =
            if digitRun tail = 0 then 0 else 1+sign.length+digitRun tail := by
        cases rest with
        | nil => exact ⟨[],[],rfl,Or.inl rfl,by simp [exponentLength,digitRun]⟩
        | cons s tail =>
          by_cases hm : s.isAscii '-' = true ∨ s.isAscii '+' = true
          · refine ⟨[s],tail,rfl,?_,?_⟩
            · simpa using hm
            · simp only [exponentLength,he,if_true,Bool.or_eq_true,hm]
              rfl
          · refine ⟨[],s::tail,rfl,Or.inl rfl,?_⟩
            simp only [exponentLength,he,if_true,Bool.or_eq_true,hm,if_false]
            rfl
      obtain ⟨sign,tail,rfl,hsign,hl⟩ := hs
      obtain ⟨d,after,rfl,hd,-,hr⟩ := exists_digits tail
      rw [hr] at hl
      by_cases hz : d = []
      · left
        rw [hl,hz]
        rfl
      · right
        refine ⟨e::(sign ++ d),after,by simp,⟨e,sign,d,rfl,by simpa using he,hsign,hz,hd⟩,?_⟩
        rw [hl,if_neg (by simpa using hz)]
        simp
        omega
    · left
      simp only [exponentLength,he]
      rfl

lemma head_exponent_append {x rest : List Rune} (hx : x = [] ∨ Exponent x)
    (h : ∀ r ∈ rest.head?, r.isDigit = false) : ∀ r ∈ (x ++ rest).head?, r.isDigit = false := by
  rcases hx with rfl | ⟨e,sign,ds,rfl,he,-⟩
  · exact h
  · intro r hr
    simp only [List.cons_append,List.head?_cons,Option.mem_def,Option.some.injEq] at hr
    subst hr
    rcases he with rfl | rfl <;> decide

lemma floatLength?_append {l rest : List Rune} (hl : Fits .float l)
    (h : ∀ r ∈ rest.head?, Apart .float l r) : floatLength? (l ++ rest) = some l.length := by
  have hd : ∀ r ∈ rest.head?, r.isDigit = false := fun r hr => (h r hr).1
  have he : ∀ r ∈ rest.head?, r ≠ .char 'e' ∧ r ≠ .char 'E' := fun r hr => (h r hr).2.2
  obtain ⟨d,p,x,hdd,hpd,⟨rfl,hne,hx⟩ | ⟨rfl,hne,hx⟩⟩ := hl
  · have hw : digitRun (d ++ .char '.'::(p ++ x) ++ rest) = d.length := by
      rw [List.append_assoc]
      refine digitRun_append hdd ?_
      intro r hr
      simp only [List.cons_append,List.head?_cons,Option.mem_def,Option.some.injEq] at hr
      subst hr
      decide
    have hp : digitRun (p ++ x ++ rest) = p.length := by
      rw [List.append_assoc]
      exact digitRun_append hpd (head_exponent_append hx hd)
    have hk : exponentLength (x ++ rest) = x.length := by
      rcases hx with rfl | hx
      · exact exponentLength_of_head he
      · exact exponentLength_append hx hd
    have hz : ¬ (d.length = 0 ∧ p.length = 0) := by
      simpa [List.length_eq_zero_iff,imp_iff_not_or] using hne
    simp only [floatLength?,hw]
    simp only [List.append_assoc,List.drop_left,List.cons_append] at hp ⊢
    simp only [hp,List.drop_left,hk,if_neg hz]
    simp
    omega
  · have hw : digitRun (d ++ x ++ rest) = d.length := by
      rw [List.append_assoc]
      exact digitRun_append hdd (head_exponent_append (Or.inr hx) hd)
    have hk := exponentLength_append hx hd
    have hz : d.length ≠ 0 := by simpa using hne
    obtain ⟨e,sign,ds,rfl,he,-⟩ := hx
    have hp : e ≠ .char '.' := by
      rcases he with rfl | rfl <;> decide
    simp only [floatLength?,hw]
    simp only [List.append_assoc,List.drop_left,List.cons_append] at hk ⊢
    simp [hp,hne,hk]

lemma frontFits_float {rs : List Rune} {n : ℕ} (h : floatLength? rs = some n) :
    FrontFits .float rs n := by
  obtain ⟨d,after,rfl,hd,-,hw⟩ := exists_digits rs
  simp only [floatLength?,hw,List.drop_left] at h
  cases after with
  | nil => simp at h
  | cons r after =>
    simp only [Rune.isAscii_iff] at h
    split_ifs at h with hr hz hz
    · subst hr
      obtain ⟨p,tail,rfl,hp,-,hpl⟩ := exists_digits after
      simp only [hpl,List.drop_left,Option.some.injEq] at h hz
      have hne : d ≠ [] ∨ p ≠ [] := by
        simpa [List.length_eq_zero_iff,imp_iff_not_or] using hz
      obtain hk | ⟨x,rest,rfl,hx,hk⟩ := exponentLength_cases tail
      · refine ⟨d ++ .char '.'::p,tail,by simp,?_,d,p,[],hd,hp,Or.inl ⟨by simp,hne,Or.inl rfl⟩⟩
        simp [← h,hk]
        omega
      · refine ⟨d ++ .char '.'::(p ++ x),rest,by simp,?_,
          d,p,x,hd,hp,Or.inl ⟨rfl,hne,Or.inr hx⟩⟩
        simp [← h,hk]
        omega
    · simp only [Option.some.injEq] at h
      obtain hk | ⟨x,rest,ht,hx,hk⟩ := exponentLength_cases (r::after)
      · exact absurd (Or.inr hk) hz
      · refine ⟨d ++ x,rest,by rw [ht,List.append_assoc],?_,d,[],x,hd,by simp [Digits],
          Or.inr ⟨rfl,by simpa using (not_or.mp hz).1,hx⟩⟩
        rw [← h,hk,List.length_append]

lemma stringRest?_cons {q r : Rune} (h : ¬ r.isAscii '\\' = true) (rest : List Rune) :
    stringRest? q (r::rest) = if r = q then some 1 else (stringRest? q rest).map (· + 1) := by
  rw [stringRest?.eq_def]
  simp only [h]
  rfl

lemma stringRest?_append {q : Rune} {body : List Rune} {n : ℕ}
    (h : stringRest? q body = some n) (rest : List Rune) :
    stringRest? q (body ++ rest) = some n := by
  fun_induction stringRest? q body generalizing n with
  | case1 => simp at h
  | case2 r h1 => simp at h
  | case3 r h1 s body h2 => simp at h
  | case4 r h1 s body h2 ih =>
    obtain ⟨m,hm,rfl⟩ := Option.map_eq_some_iff.mp h
    simp [stringRest?,h1,h2,ih hm]
  | case5 body h1 => simpa [stringRest?_cons h1] using h
  | case6 r body h1 h2 ih =>
    obtain ⟨m,hm,rfl⟩ := Option.map_eq_some_iff.mp h
    simp [stringRest?_cons h1,h2,ih hm]

lemma stringRest?_cut {q : Rune} {rs : List Rune} {n : ℕ} (h : stringRest? q rs = some n) :
    ∃ body rest, rs = body ++ rest ∧ n = body.length ∧ stringRest? q body = some n := by
  fun_induction stringRest? q rs generalizing n with
  | case1 => simp at h
  | case2 r h1 => simp at h
  | case3 r h1 s rs h2 => simp at h
  | case4 r h1 s rs h2 ih =>
    obtain ⟨m,hm,rfl⟩ := Option.map_eq_some_iff.mp h
    obtain ⟨body,rest,rfl,rfl,hb⟩ := ih hm
    exact ⟨r::s::body,rest,rfl,rfl,by simp [stringRest?,h1,h2,hb]⟩
  | case5 rs h1 =>
    refine ⟨[q],rs,rfl,?_,?_⟩
    · simpa using h.symm
    · simpa [stringRest?_cons h1] using h
  | case6 r rs h1 h2 ih =>
    obtain ⟨m,hm,rfl⟩ := Option.map_eq_some_iff.mp h
    obtain ⟨body,rest,rfl,rfl,hb⟩ := ih hm
    exact ⟨r::body,rest,rfl,rfl,by simp [stringRest?_cons h1,h2,hb]⟩

lemma floatLength?_of_head {r : Rune} (hd : r.isDigit = false) (hp : r ≠ .char '.')
    (rest : List Rune) : floatLength? (r::rest) = none := by
  have hw : digitRun (r::rest) = 0 := by simp [digitRun,hd]
  simp [floatLength?,hw,hp]

lemma floatLength?_of_point {rest : List Rune} (h : ∀ r ∈ rest.head?, r.isDigit = false) :
    floatLength? (.char '.'::rest) = none := by
  have hw : digitRun (.char '.'::rest) = 0 := by simp [digitRun,Rune.isDigit]
  have hp : digitRun rest = 0 := digitRun_append (a := []) (by simp [Digits]) h
  simp [floatLength?,hw,hp]

lemma floatLength?_of_digits {l rest : List Rune} (hl : Digits l)
    (h : ∀ r ∈ rest.head?, Apart .int l r) : floatLength? (l ++ rest) = none := by
  have hw : digitRun (l ++ rest) = l.length := digitRun_append hl fun r hr => (h r hr).1
  simp only [floatLength?,hw,List.drop_left]
  cases rest with
  | nil => rfl
  | cons r rest =>
    obtain ⟨hd,hp,he⟩ := h r rfl
    have hk : exponentLength (r::rest) = 0 := exponentLength_of_head (by simpa using he)
    simp [hp,hk]

lemma intLength?_of_head {r : Rune} (hd : r.isDigit = false) (rest : List Rune) :
    intLength? (r::rest) = none := by simp [intLength?,digitRun,hd]

lemma stringLength?_of_head {r : Rune} (h : r ≠ .char '"') (h' : r ≠ .char '\'')
    (rest : List Rune) : stringLength? (r::rest) = none := by simp [stringLength?,h,h']

lemma ne_mark_of_startsName {r : Rune} (hr : startsName r = true) :
    ∀ c ∈ ['.','"','\''], r ≠ .char c := by
  rintro c hc rfl
  have hsub : ['.','"','\''] ⊆ marksAndQuotes := by decide
  rw [not_startsName_of_mark c (hsub hc)] at hr
  simp at hr

/-- At a mark, which starts no number, string or name, an operator is looked for first. -/
lemma nextLexeme?_of_mark {c : Char} {rest : List Rune} (hf : floatLength? (.char c::rest) = none)
    (hc : c ∈ marks) : nextLexeme? (.char c::rest) =
      ((operatorLength? (.char c::rest)).map (.operator,·)).or
        ((punctuationLength? (.char c::rest)).map (.punctuation,·)) := by
  have hmem : c ∈ marksAndQuotes := List.mem_cons_of_mem _ (List.mem_cons_of_mem _ hc)
  have hquote : ∀ c ∈ marks, c ≠ '"' ∧ c ≠ '\'' := by
    simp [marks,shortOperators,punctuationMarks,longOperators]
  have hs := stringLength?_of_head (r := .char c) (by simpa using (hquote c hc).1)
    (by simpa using (hquote c hc).2) rest
  simp [nextLexeme?,hf,intLength?_of_head (not_isDigit_of_mark c hmem),hs,nameLength?,
    not_startsName_of_mark c hmem]

/-- No operator starts with a point. -/
lemma floatLength?_of_operator {c : Char} (hc : c ∈ shortOperators ++ longOperators.map Prod.fst)
    (rest : List Rune) : floatLength? (.char c::rest) = none := by
  have hmark : ∀ c ∈ shortOperators ++ longOperators.map Prod.fst,
      (Rune.char c).isDigit = false ∧ Rune.char c ≠ .char '.' := by
    simp [shortOperators,longOperators,Rune.isDigit]
  exact floatLength?_of_head (hmark c hc).1 (hmark c hc).2 rest

lemma stringLength?_append {l : List Rune} (hl : Fits .string l) (rest : List Rune) :
    stringLength? (l ++ rest) = some l.length := by
  obtain ⟨q,body,rfl,hq,hb⟩ := hl
  simp only [List.cons_append,stringLength?,stringRest?_append hb]
  rcases hq with rfl | rfl <;> simp

lemma nameLength?_append {l rest : List Rune} (hl : Fits .name l)
    (h : ∀ r ∈ rest.head?, continuesName r = false) : nameLength? (l ++ rest) = some l.length := by
  obtain ⟨r,tail,rfl,hr,ht⟩ := hl
  have hn := takeWhile_append_left ht h
  simp only [List.cons_append,nameLength?,hr,if_true,hn,List.length_cons,Nat.add_comm]

/-- A short operator is all of the operator unless a long one starts with it. -/
lemma operatorLength?_short {c : Char} (hc : c ∈ shortOperators) {rest : List Rune}
    (h : ∀ r ∈ rest.head?, Apart .operator [.char c] r) :
    operatorLength? (.char c::rest) = some 1 := by
  have hlong : (longOperators.any fun op => (Rune.char c).isAscii op.1 &&
      rest.head? == some (.char op.2)) = false := by
    rw [List.any_eq_false]
    intro op hop
    simp only [Bool.and_eq_true,Rune.isAscii_iff,beq_iff_eq,not_and]
    intro h1 h2
    exact h _ h2 op hop (by rw [h1]) rfl
  have hshort : shortOperators.any (Rune.char c).isAscii = true := by
    rw [List.any_eq_true]
    exact ⟨c,hc,by simp⟩
  simp [operatorLength?,hlong,hshort]

lemma operatorLength?_long {op : Char × Char} (hop : op ∈ longOperators) (rest : List Rune) :
    operatorLength? (.char op.1::.char op.2::rest) = some 2 := by
  have hlong : (longOperators.any fun o => (Rune.char op.1).isAscii o.1 &&
      (Rune.char op.2::rest).head? == some (.char o.2)) = true := by
    rw [List.any_eq_true]
    exact ⟨op,hop,by simp⟩
  rw [operatorLength?,if_pos hlong]

lemma operatorLength?_of_punctuation {c : Char} (hc : c ∈ punctuationMarks) (rest : List Rune) :
    operatorLength? (.char c::rest) = none := by
  have hmark : ∀ c ∈ punctuationMarks,
      (∀ op ∈ longOperators, c ≠ op.1) ∧ c ∉ shortOperators := by
    simp [punctuationMarks,longOperators,shortOperators]
  have hlong : (longOperators.any fun op => (Rune.char c).isAscii op.1 &&
      rest.head? == some (.char op.2)) = false := by
    rw [List.any_eq_false]
    intro op hop
    simp [(hmark c hc).1 op hop]
  have hshort : shortOperators.any (Rune.char c).isAscii = false := by
    rw [List.any_eq_false]
    intro d hd
    have hne : c ≠ d := fun he => (hmark c hc).2 (he ▸ hd)
    simp [hne]
  simp [operatorLength?,hlong,hshort]

lemma punctuationLength?_cons {c : Char} (hc : c ∈ punctuationMarks) (rest : List Rune) :
    punctuationLength? (.char c::rest) = some 1 := by
  have hp : punctuationMarks.any (Rune.char c).isAscii = true := by
    rw [List.any_eq_true]
    exact ⟨c,hc,by simp⟩
  rw [punctuationLength?,if_pos hp]

/-- A lexeme is found in front of every text that stands apart from it. -/
theorem nextLexeme?_append {k : LexemeKind} {l rest : List Rune} (hl : Fits k l)
    (h : ∀ r ∈ rest.head?, Apart k l r) : nextLexeme? (l ++ rest) = some (k,l.length) := by
  cases k with
  | float => simp [nextLexeme?,floatLength?_append hl h]
  | int =>
    have hf := floatLength?_of_digits hl.2 h
    have hw : digitRun (l ++ rest) = l.length := digitRun_append hl.2 fun r hr => (h r hr).1
    simp [nextLexeme?,hf,intLength?,hw,hl.1]
  | string =>
    have hs := stringLength?_append hl rest
    obtain ⟨q,body,rfl,hq,-⟩ := hl
    have hd : q.isDigit = false ∧ q ≠ .char '.' := by
      rcases hq with rfl | rfl <;> decide
    rw [List.cons_append] at hs ⊢
    simp [nextLexeme?,floatLength?_of_head hd.1 hd.2,intLength?_of_head hd.1,hs]
  | name =>
    have hn := nameLength?_append hl h
    obtain ⟨r,tail,rfl,hr,-⟩ := hl
    have hd := not_isDigit_of_startsName hr
    have hm := ne_mark_of_startsName hr
    rw [List.cons_append] at hn ⊢
    simp [nextLexeme?,floatLength?_of_head hd (hm '.' (by simp)),intLength?_of_head hd,
      stringLength?_of_head (hm '"' (by simp)) (hm '\'' (by simp)),hn]
  | operator =>
    rcases hl with ⟨c,hc,rfl⟩ | ⟨op,hop,rfl⟩
    · have hf := floatLength?_of_operator (List.mem_append_left _ hc) rest
      rw [List.singleton_append,nextLexeme?_of_mark hf (by simp [marks,hc]),
        operatorLength?_short hc h]
      rfl
    · have hm : op.1 ∈ longOperators.map Prod.fst := List.mem_map_of_mem hop
      have hf := floatLength?_of_operator (List.mem_append_right _ hm) (.char op.2::rest)
      rw [List.cons_append,List.singleton_append,
        nextLexeme?_of_mark hf (by simp only [marks,List.mem_append,hm,or_true,true_or]),
        operatorLength?_long hop]
      rfl
  | punctuation =>
    obtain ⟨c,hc,rfl⟩ := hl
    have hf : floatLength? (.char c::rest) = none := by
      by_cases hp : c = '.'
      · subst hp
        exact floatLength?_of_point fun r hr => h r hr rfl
      · have hd := not_isDigit_of_mark c (by simp [marksAndQuotes,marks,hc])
        exact floatLength?_of_head hd (by simpa using hp) rest
    rw [List.singleton_append,nextLexeme?_of_mark hf (by simp [marks,hc]),
      operatorLength?_of_punctuation hc,punctuationLength?_cons hc]
    rfl

lemma frontFits_int {rs : List Rune} {n : ℕ} (h : intLength? rs = some n) :
    FrontFits .int rs n := by
  obtain ⟨d,rest,rfl,hd,-,hw⟩ := exists_digits rs
  simp only [intLength?,hw,Option.ite_none_left_eq_some,Option.some.injEq] at h
  exact ⟨d,rest,rfl,h.2.symm,by simpa using h.1,hd⟩

lemma frontFits_string {rs : List Rune} {n : ℕ} (h : stringLength? rs = some n) :
    FrontFits .string rs n := by
  cases rs with
  | nil => simp [stringLength?] at h
  | cons q rs =>
    simp only [stringLength?,Option.ite_none_right_eq_some,Option.map_eq_some_iff] at h
    obtain ⟨hq,m,hm,rfl⟩ := h
    obtain ⟨body,rest,rfl,rfl,hb⟩ := stringRest?_cut hm
    exact ⟨q::body,rest,rfl,rfl,q,body,rfl,by simpa using hq,hb⟩

lemma frontFits_name {rs : List Rune} {n : ℕ} (h : nameLength? rs = some n) :
    FrontFits .name rs n := by
  cases rs with
  | nil => simp [nameLength?] at h
  | cons r rs =>
    simp only [nameLength?,Option.ite_none_right_eq_some,Option.some.injEq] at h
    refine ⟨r::rs.takeWhile continuesName,rs.dropWhile continuesName,?_,?_,r,_,rfl,h.1,?_⟩
    · simp
    · simp [← h.2,Nat.add_comm]
    · intro x hx
      exact List.mem_takeWhile_imp hx

lemma frontFits_operator {rs : List Rune} {n : ℕ} (h : operatorLength? rs = some n) :
    FrontFits .operator rs n := by
  cases rs with
  | nil => simp [operatorLength?] at h
  | cons r rs =>
    simp only [operatorLength?] at h
    split_ifs at h with h1 h2
    · simp only [List.any_eq_true,Bool.and_eq_true,Rune.isAscii_iff,beq_iff_eq] at h1
      obtain ⟨op,hop,rfl,hh⟩ := h1
      obtain ⟨rest,rfl⟩ := List.head?_eq_some_iff.mp hh
      simp only [Option.some.injEq] at h
      exact ⟨[.char op.1,.char op.2],rest,rfl,by simp [← h],Or.inr ⟨op,hop,rfl⟩⟩
    · simp only [List.any_eq_true,Rune.isAscii_iff] at h2
      obtain ⟨c,hc,rfl⟩ := h2
      simp only [Option.some.injEq] at h
      exact ⟨[.char c],rs,rfl,by simp [← h],Or.inl ⟨c,hc,rfl⟩⟩

lemma frontFits_punctuation {rs : List Rune} {n : ℕ} (h : punctuationLength? rs = some n) :
    FrontFits .punctuation rs n := by
  cases rs with
  | nil => simp [punctuationLength?] at h
  | cons r rs =>
    simp only [punctuationLength?,Option.ite_none_right_eq_some,List.any_eq_true,
      Rune.isAscii_iff,Option.some.injEq] at h
    obtain ⟨⟨c,hc,rfl⟩,rfl⟩ := h
    exact ⟨[.char c],rs,rfl,rfl,c,hc,rfl⟩

/-- The lexeme at the front fits its kind. -/
theorem fits_of_nextLexeme? {rs : List Rune} {k : LexemeKind} {n : ℕ}
    (h : nextLexeme? rs = some (k,n)) : FrontFits k rs n := by
  simp only [nextLexeme?,Option.orElse_eq_orElse,Option.orElse_eq_or,Option.or_eq_some_iff,
    Option.map_eq_some_iff,Prod.mk.injEq] at h
  obtain ⟨m,hf,rfl,rfl⟩ | ⟨-,⟨m,hi,rfl,rfl⟩ | ⟨-,⟨m,hs,rfl,rfl⟩ | ⟨-,⟨m,hn,rfl,rfl⟩ |
    ⟨-,⟨m,ho,rfl,rfl⟩ | ⟨-,m,hp,rfl,rfl⟩⟩⟩⟩⟩ := h
  · exact frontFits_float hf
  · exact frontFits_int hi
  · exact frontFits_string hs
  · exact frontFits_name hn
  · exact frontFits_operator ho
  · exact frontFits_punctuation hp

/-- A name is taken as long as it goes. -/
lemma not_continuesName_of_nextLexeme? {l rest : List Rune}
    (h : nextLexeme? (l ++ rest) = some (.name,l.length)) :
    ∀ r ∈ rest.head?, continuesName r = false := by
  obtain ⟨m,after,hm,hl,r,tail,rfl,hr,ht⟩ := fits_of_nextLexeme? h
  obtain ⟨rfl,rfl⟩ := List.append_inj hm hl
  have hd := not_isDigit_of_startsName hr
  have hmark := ne_mark_of_startsName hr
  simp only [nextLexeme?,List.cons_append,floatLength?_of_head hd (hmark '.' (by simp)),
    intLength?_of_head hd,stringLength?_of_head (hmark '"' (by simp)) (hmark '\'' (by simp)),
    nameLength?,hr] at h
  simp [List.takeWhile_append_of_pos ht] at h
  cases rest with
  | nil => simp
  | cons x rest =>
    intro y hy
    simp only [List.head?_cons,Option.mem_def,Option.some.injEq] at hy
    subst hy
    by_contra hx
    simp only [Bool.not_eq_false] at hx
    simp [hx] at h
    omega

end Script
end CellScript
