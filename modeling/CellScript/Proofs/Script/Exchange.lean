import Mathlib
import CellScript.Proofs.Script.Programs
import CellScript.Proofs.Script.Spot
import CellScript.Proofs.Script.Store

/-! Column names exchanged for positions in code. Where no literal holds a closing bracket, a name in
quotes and brackets is a key of its own, and the code with a position in its place has the same
lexemes but for the key. -/
namespace CellScript.Script

def namedKey (n : Text) : Text := Text.ascii '['::(quoteWith (Text.ascii '"') n ++ [Text.ascii ']'])

def placedKey (k : ℕ) : Text := Text.ascii '['::(Text.ofNat k ++ [Text.ascii ']'])

/-- The same text, with some occurrences of a name in brackets exchanged for a position. -/
inductive Exchanged (n : Text) (k : ℕ) : Text → Text → Prop
  | nil : Exchanged n k [] []
  | byte (b : UInt8) {t u : Text} : Exchanged n k t u → Exchanged n k (b::t) (b::u)
  | key {t u : Text} : Exchanged n k t u → Exchanged n k (namedKey n ++ t) (placedKey k ++ u)

namespace Exchanged

variable {n : Text} {k : ℕ} {t u v w : Text}

lemma refl (t : Text) : Exchanged n k t t := by
  induction t with
  | nil => exact .nil
  | cons b t ih => exact .byte b ih

lemma append (h : Exchanged n k t u) (h' : Exchanged n k v w) :
    Exchanged n k (t ++ v) (u ++ w) := by
  induction h with
  | nil => exact h'
  | byte b _ ih => exact .byte b ih
  | key _ ih =>
    rw [List.append_assoc,List.append_assoc]
    exact .key ih

lemma head?_eq (h : Exchanged n k t u) : u.head? = t.head? := by
  cases h <;> rfl

lemma getLast?_eq (h : Exchanged n k t u) : u.getLast? = t.getLast? := by
  induction h with
  | nil => rfl
  | byte b _ ih => rw [List.getLast?_cons,List.getLast?_cons,ih]
  | @key t u h ih =>
    rw [List.getLast?_append,List.getLast?_append,ih]
    simp [namedKey,placedKey,List.getLast?_cons]

/-- An exchange in a text that starts with a given part: the part is kept, or the first exchange
begins in it. -/
lemma split {x rest u : Text} (h : Exchanged n k (x ++ rest) u) :
    (∃ rest', u = x ++ rest' ∧ Exchanged n k rest rest') ∨
      ∃ p q t t', x = p ++ Text.ascii '['::q ∧ x ++ rest = p ++ (namedKey n ++ t) ∧
        u = p ++ (placedKey k ++ t') ∧ Exchanged n k t t' := by
  induction x generalizing u with
  | nil => exact Or.inl ⟨u,rfl,h⟩
  | cons b x ih =>
    generalize hs : b::x ++ rest = s at h
    cases h with
    | nil => simp at hs
    | @byte c t u h =>
      rw [List.cons_append,List.cons.injEq] at hs
      obtain ⟨rfl,rfl⟩ := hs
      rcases ih h with ⟨rest',rfl,hr⟩ | ⟨p,q,t,t',rfl,ht,rfl,he⟩
      · exact Or.inl ⟨rest',rfl,hr⟩
      · exact Or.inr ⟨b::p,q,t,t',rfl,by rw [ht]; rfl,rfl,he⟩
    | @key t u h =>
      have hb := congrArg List.head? hs
      simp only [List.cons_append,namedKey,List.head?_cons,Option.some.injEq] at hb
      subst hb
      exact Or.inr ⟨[],x,t,u,rfl,rfl,rfl,h⟩

end Exchanged

/-- Literals are opened by quotes only. -/
lemma Spot.isQuote_after {p : Text} {s : Spot} {q : UInt8}
    (hs : ∀ q, s = .literal q ∨ s = .escape q → Text.isQuote q = true)
    (h : s.after p = .literal q ∨ s.after p = .escape q) : Text.isQuote q = true := by
  induction p generalizing s with
  | nil => exact hs q h
  | cons b p ih =>
    refine ih ?_ h
    intro q hq
    cases s with
    | code =>
      simp only [step] at hq
      split at hq <;> simp at hq
      subst hq
      assumption
    | literal x =>
      have hx := hs x (Or.inl rfl)
      simp only [step] at hq
      split at hq
      · simp at hq
        rwa [← hq]
      · split at hq <;> simp at hq
        rwa [← hq]
    | escape x =>
      simp only [step,literal.injEq,reduceCtorEq,or_false] at hq
      rw [← hq]
      exact hs x (Or.inr rfl)

/-- Inside a literal, what stands in front of the bracket that closes a name does not lead to
code. -/
lemma Spot.after_name {n : Text} (hn : PlainName n) {s : Spot} (hs : s ≠ .code)
    (hq : ∀ q, s = .literal q ∨ s = .escape q → Text.isQuote q = true) :
    s.after (Text.ascii '['::quoteWith (Text.ascii '"') n) ≠ .code := by
  have hliteral : ∀ q, Text.isQuote q = true →
      (literal q).after (quoteWith (Text.ascii '"') n) ≠ .code := by
    intro q hq
    have hslash : ∀ b ∈ n, b ≠ Text.ascii '\\' ∧ b ≠ q := by
      intro b hb
      refine ⟨?_,?_⟩
      · rintro rfl
        exact hn.slash hb
      · rintro rfl
        rw [hn.quote b hb] at hq
        simp at hq
    rw [quoteWith,after_cons,after_append]
    obtain ⟨c,rfl,rfl | rfl⟩ := isQuote_iff.mp hq
    · -- the first quote closes the literal, and the second one opens another
      have hstep : (literal (Text.ascii '"')).step (Text.ascii '"') = code := by decide
      rw [hstep,after_code hn.quote]
      decide
    · have hstep : (literal (Text.ascii '\'')).step (Text.ascii '"') = literal (Text.ascii '\'') := by
        decide
      rw [hstep,after_literal hslash]
      decide
  cases s with
  | code => exact absurd rfl hs
  | literal q =>
    have hquote := hq q (Or.inl rfl)
    have hstep : (literal q).step (Text.ascii '[') = literal q := by
      obtain ⟨c,rfl,rfl | rfl⟩ := isQuote_iff.mp hquote <;> decide
    rw [after_cons,hstep]
    exact hliteral q hquote
  | escape q => exact hliteral q (hq q (Or.inr rfl))

/-- There is only one way to the end of a literal. -/
lemma Spot.Closes.unique {s : Spot} {a b x y : Text} (ha : s.Closes a) (hb : s.Closes b)
    (h : a ++ x = b ++ y) : a = b := by
  induction a generalizing s b with
  | nil =>
    cases b with
    | nil => rfl
    | cons c b => exact absurd ha hb.1
  | cons c a ih =>
    cases b with
    | nil => exact absurd hb ha.1
    | cons d b =>
      rw [List.cons_append,List.cons_append,List.cons.injEq] at h
      obtain ⟨rfl,h⟩ := h
      rw [ih ha.2 hb.2 h]

def closingBracket : Shape := ⟨.punctuation,[Text.ascii ']']⟩

/-- A name in quotes and a closing bracket are two lexemes. -/
lemma Laid.split_name {n : Text} (hn : PlainName n) {ls : List Shape} {t : Text}
    (h : Laid ls (quoteWith (Text.ascii '"') n ++ Text.ascii ']'::t)) :
    ∃ ms, ls = ⟨.string,quoteWith (Text.ascii '"') n⟩::closingBracket::ms ∧ Laid ms t := by
  obtain ⟨l,ms,body,rest,rfl,htext,ht,hf,hr⟩ := h.uncons_byte (by decide)
  have hk : l.kind = .string := by
    by_contra hk
    have hplain := (hf.plain hk (Text.ascii '"') (by simp [htext])).2
    exact absurd hplain (by decide)
  obtain ⟨q,body',htext',-,hclose⟩ := hf.closes hk
  obtain ⟨rfl,rfl⟩ := List.cons.inj (htext.symm.trans htext')
  have hname : (Spot.literal (Text.ascii '"')).Closes (n ++ [Text.ascii '"']) := by
    refine Spot.closes_literal (fun b hb => ⟨?_,?_⟩) ⟨by simp,?_⟩
    · rintro rfl
      exact hn.slash hb
    · rintro rfl
      exact absurd (hn.quote _ hb) (by decide)
    · show Spot.step _ _ = _
      decide
  obtain rfl := hclose.unique hname ht.symm
  obtain rfl : rest = Text.ascii ']'::t := (List.append_cancel_left ht).symm
  obtain ⟨ms,rfl,hms⟩ := hr.uncons_mark (by decide) (by decide)
  refine ⟨ms,?_,hms⟩
  obtain ⟨kind,text⟩ := l
  rw [show kind = .string from hk,show text = _ from htext]
  rfl

/-- Lexemes that are the same but for names in brackets, which have become positions. -/
inductive Rekeyed (n : Text) (k : ℕ) : List Shape → List Shape → Prop
  | nil : Rekeyed n k [] []
  | word (l : Shape) {ls ms : List Shape} : Rekeyed n k ls ms → Rekeyed n k (l::ls) (l::ms)
  | key {ls ms : List Shape} : Rekeyed n k ls ms →
      Rekeyed n k (openingBracket::⟨.string,quoteWith (Text.ascii '"') n⟩::closingBracket::ls)
        (openingBracket::⟨.int,Text.ofNat k⟩::closingBracket::ms)

lemma laid_placedKey (k : ℕ) {ms : List Shape} {u : Text} (h : Laid ms u) :
    Laid (openingBracket::⟨.int,Text.ofNat k⟩::closingBracket::ms) (placedKey k ++ u) := by
  have hclose : Laid (closingBracket::ms) ([Text.ascii ']'] ++ u) :=
    laid_punctuation (c := ']') (by decide) (by decide) (by decide) h
  have hint : Laid (⟨.int,Text.ofNat k⟩::closingBracket::ms)
      (Text.ofNat k ++ ([Text.ascii ']'] ++ u)) := by
    refine Laid.cons_touching (l := ⟨.int,Text.ofNat k⟩)
      (fits_of_isDecimal (Text.isDecimal_ofNat k)) ?_ hclose
    intro r hr
    rw [head?_runes_of_mark (w := [Text.ascii ']']) (c := ']') rfl (by decide) r hr]
    exact apart_bracket (Or.inl rfl)
  have hopen : Laid (openingBracket::⟨.int,Text.ofNat k⟩::closingBracket::ms)
      (Text.ofString "[" ++ (Text.ofNat k ++ ([Text.ascii ']'] ++ u))) :=
    laid_punctuation (c := '[') (by decide) (by decide) (by decide) hint
  simpa [placedKey,show Text.ofString "[" = [Text.ascii '['] by decide] using hopen

/-- An exchange in code: the first lexeme is kept, or it is the bracket of a name that was exchanged
for a position. -/
lemma Laid.exchange_head {n : Text} (hn : PlainName n) {k : ℕ} {l : Shape} {ls : List Shape}
    {rest u : Text} (hf : l.Fits) (ha : ∀ r ∈ rest.runes.head?, l.Apart r) (hr : Laid ls rest)
    (hb : ∀ m ∈ l::ls, m.kind = .string → Text.ascii ']' ∉ m.text)
    (he : Exchanged n k (l.text ++ rest) u) :
    (∃ rest', u = l.text ++ rest' ∧ Exchanged n k rest rest') ∨
      l = openingBracket ∧ ∃ t t', rest = quoteWith (Text.ascii '"') n ++ Text.ascii ']'::t ∧
        u = placedKey k ++ t' ∧ Exchanged n k t t' := by
  rcases he.split with hkept | ⟨p,q,t,t',hp,htext,rfl,ht⟩
  · exact Or.inl hkept
  right
  have hk : l.kind ≠ .string := by
    intro hk
    have hspot := hf.spot_ne_code hk hp (by decide)
    have hquote : ∀ q, Spot.code.after p = .literal q ∨ Spot.code.after p = .escape q →
        Text.isQuote q = true := fun q => Spot.isQuote_after (by simp)
    have hbracket := Spot.after_name hn hspot hquote
    rw [← Spot.after_append] at hbracket
    obtain ⟨m,hm,hmk,hmb⟩ := (hr.cons_touching hf ha).mem_string
      (u := t) (b := Text.ascii ']') (by rw [htext]; simp [namedKey]) hbracket
    exact hb m hm hmk hmb
  obtain rfl := hf.eq_openingBracket hk (by rw [hp]; simp)
  have hone : openingBracket.text = [Text.ascii '['] := by decide
  obtain rfl : p = [] := by
    cases p with
    | nil => rfl
    | cons y p => simp [hone] at hp
  refine ⟨rfl,t,t',?_,rfl,ht⟩
  rw [hone] at htext
  simpa [namedKey] using htext

lemma head?_runes_cons {b : UInt8} (hb : b.toNat < 0x80) (t u : Text) :
    (Text.runes (b::t)).head? = (Text.runes (b::u)).head? := by
  rw [Text.runes_cons_of_lt hb,Text.runes_cons_of_lt hb,List.head?_cons,List.head?_cons]

lemma head?_runes_blank_append {gap t u : Text} (hg : Blank gap)
    (h : t.runes.head? = u.runes.head?) : (gap ++ t).runes.head? = (gap ++ u).runes.head? := by
  cases gap with
  | nil => exact h
  | cons b gap =>
    have hb := hg b (by simp)
    simp only [Text.isBlank,Bool.or_eq_true,beq_iff_eq,or_assoc] at hb
    refine head?_runes_cons ?_ _ _
    rcases hb with rfl | rfl | rfl | rfl <;> decide

/-- Code with names exchanged for positions has the same lexemes but for the keys. -/
theorem Laid.exchange {n : Text} (hn : PlainName n) {k : ℕ} {ls : List Shape} {t u : Text}
    (h : Laid ls t) (hb : ∀ l ∈ ls, l.kind = .string → Text.ascii ']' ∉ l.text)
    (he : Exchanged n k t u) :
    ∃ ms, Laid ms u ∧ Rekeyed n k ls ms ∧ u.runes.head? = t.runes.head? := by
  induction hlen : ls.length using Nat.strong_induction_on generalizing ls t u with
  | _ len ih =>
    have hgap : ∀ {gap rest u : Text}, Blank gap → Exchanged n k (gap ++ rest) u →
        ∃ rest', u = gap ++ rest' ∧ Exchanged n k rest rest' := by
      intro gap rest u hg he
      rcases he.split with hkept | ⟨p,q,_,_,rfl,-⟩
      · exact hkept
      · exact absurd (hg (Text.ascii '[') (by simp)) (by decide)
    cases h with
    | nil hg =>
      rw [← List.append_nil t] at he
      obtain ⟨rest',rfl,hr⟩ := hgap hg he
      cases hr with
      | nil =>
        refine ⟨[],.nil ?_,.nil,by simp⟩
        simpa using hg
    | @cons gap rest l ls hg hf ha hr =>
      obtain ⟨u,rfl,hu⟩ := hgap hg he
      have hrest : ∀ m ∈ ls, m.kind = .string → Text.ascii ']' ∉ m.text :=
        fun m hm => hb m (by simp [hm])
      rcases Laid.exchange_head hn hf ha hr hb hu with ⟨rest',rfl,hrest'⟩ |
        ⟨rfl,t,t',rfl,rfl,ht⟩
      · obtain ⟨ms,hms,hre,hhead⟩ := ih ls.length (by simp [← hlen]) hr hrest hrest' rfl
        refine ⟨l::ms,.cons hg hf (by rwa [hhead]) hms,.word l hre,head?_runes_blank_append hg ?_⟩
        rw [head?_runes_append (Shape.text_ne_nil hf) (payload?_of_runes_head hms.head),
          head?_runes_append (Shape.text_ne_nil hf) (payload?_of_runes_head hr.head)]
      · obtain ⟨ks,rfl,hks⟩ := hr.split_name hn
        obtain ⟨ms,hms,hre,-⟩ := ih ks.length (by simp [← hlen]; omega) hks
          (fun m hm => hrest m (by simp [hm])) ht rfl
        refine ⟨_,(laid_placedKey k hms).blank_append hg,.key hre,head?_runes_blank_append hg ?_⟩
        exact head?_runes_cons (by decide) _ _

def OneKey (n : Text) (k : ℕ) (m : Text) (i : Int64) : Prop := m = n ∧ i = Int64.ofInt k

/-- Lexemes that are the same but for exchanged keys match. -/
lemma Rekeyed.matches {n : Text} (hn : PlainName n) {k : ℕ} (hk : k < 2^63) {ls ls' : List Lexeme}
    (h : Rekeyed n k (ls.map Lexeme.shape) (ls'.map Lexeme.shape)) :
    Matches (OneKey n k) [] ls ls' := by
  generalize hs : ls.map Lexeme.shape = ss at h
  generalize hs' : ls'.map Lexeme.shape = ss' at h
  induction h generalizing ls ls' with
  | nil =>
    obtain rfl := List.map_eq_nil_iff.mp hs
    obtain rfl := List.map_eq_nil_iff.mp hs'
    exact .stop
  | word l _ ih =>
    obtain ⟨x,xs,rfl,hx,hxs⟩ := List.map_eq_cons_iff.mp hs
    obtain ⟨y,ys,rfl,hy,hys⟩ := List.map_eq_cons_iff.mp hs'
    exact .word (hx.trans hy.symm) (ih hxs hys)
  | key _ ih =>
    obtain ⟨o,xs,rfl,ho,hxs⟩ := List.map_eq_cons_iff.mp hs
    obtain ⟨m,xs,rfl,hm,hxs⟩ := List.map_eq_cons_iff.mp hxs
    obtain ⟨c,xs,rfl,hc,hxs⟩ := List.map_eq_cons_iff.mp hxs
    obtain ⟨o',ys,rfl,ho',hys⟩ := List.map_eq_cons_iff.mp hs'
    obtain ⟨i,ys,rfl,hi,hys⟩ := List.map_eq_cons_iff.mp hys
    obtain ⟨c',ys,rfl,hc',hys⟩ := List.map_eq_cons_iff.mp hys
    have hname : m.shape.Fits := by
      rw [hm]
      exact fits_quoteWith_plain (by decide) hn.quote hn.slash
    have hnumber : i.shape.Fits := by
      rw [hi]
      exact fits_of_isDecimal (Text.isDecimal_ofNat k)
    have hmk : m.kind = .string := congrArg Shape.kind hm
    have hmt : m.text = quoteWith (Text.ascii '"') n := congrArg Shape.text hm
    have hik : i.kind = .int := congrArg Shape.kind hi
    have hit : i.text = Text.ofNat k := congrArg Shape.text hi
    refine .key ⟨ho.trans ho'.symm,hc.trans hc'.symm,congrArg Shape.kind ho,congrArg Shape.text ho,
      congrArg Shape.text hc,hmk,not_mem_leaders hname (Or.inr hmk),hik,
      not_mem_leaders hnumber (Or.inl hik),Int64.ofInt k,?_,?_,rfl⟩ (ih hxs hys)
    · have hread := Number.readInt_of_isDecimal (Text.isDecimal_ofNat k)
        (by rw [Text.decimal_ofNat]; exact hk)
      rwa [Text.decimal_ofNat,← hit] at hread
    · rw [hmt]
      exact decodeLiteral_quoteWith _ hn.utf8 hn.slash

section

variable {n : Text} {k : ℕ} {code code' : Text} {ls : List Lexeme}

lemma matches_of_exchanged (hn : PlainName n) (hk : k < 2^63)
    (h : Laid (ls.map Lexeme.shape) code) (hs : lex? code = some ls) (hb : Bracketless code)
    (he : Exchanged n k code code') : ∃ ls', lex? code' = some ls' ∧
      Laid (ls'.map Lexeme.shape) code' ∧ Matches (OneKey n k) [] ls ls' := by
  obtain ⟨ms,hms,hre,-⟩ := h.exchange hn (by simpa [Lexeme.shape] using hb ls hs) he
  obtain ⟨ls',hs',rfl⟩ := hms.lex?
  exact ⟨ls',hs',hms,hre.matches hn hk⟩

/-- An expression with names exchanged for positions is an expression that is alike. -/
theorem Formula.compile_exchanged (hn : PlainName n) (hk : k < 2^63) {f : Formula}
    (hf : Formula.compile code = .ok f) (hb : Bracketless code) (he : Exchanged n k code code') :
    ∃ f', Formula.compile code' = .ok f' ∧ f.expr.Alike (OneKey n k) f'.expr := by
  obtain ⟨-,-,ls,hs,-⟩ := Formula.compile_eq_ok_iff.mp hf
  have hspelled := spelled_of_compile hf hs
  obtain ⟨ls',hs',hlaid,hm⟩ := matches_of_exchanged hn hk (hspelled.laid hs) hs hb he
  refine Formula.compile_of_matches hf hs hs' ?_ hm
  cases ls' with
  | nil =>
    cases hm
    obtain ⟨l,hl,-⟩ := hspelled.chained.opens
    simp at hl
  | cons l ls' => exact hlaid.not_blankOnly

/-- A program with names exchanged for positions is a program that is alike. -/
theorem Program.compile_exchanged (hn : PlainName n) (hk : k < 2^63) {p : Program}
    (hp : Program.compile code = .ok p) (hb : Bracketless code) (he : Exchanged n k code code') :
    ∃ p', Program.compile code' = .ok p' ∧ p.Alike (OneKey n k) p' := by
  obtain ⟨-,ls,cs,hs,-⟩ := Program.compile_eq_ok_iff.mp hp
  obtain ⟨ls',hs',-,hm⟩ := matches_of_exchanged hn hk (Program.laid hp hs) hs hb he
  exact Program.compile_of_matches hp hs hs' hm

end

end CellScript.Script
