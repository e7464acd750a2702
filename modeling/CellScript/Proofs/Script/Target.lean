import Mathlib
import CellScript.Proofs.Script.Exchange
import CellScript.Proofs.Script.Store

/-! Cells as targets. Where a cell with a name in quotes stands among code in front of an equals sign,
a program has a statement that stores under this name, and the statement stands where the cell
does. -/
namespace CellScript.Script

open CellScript.Script.Parser

def placeAfter (t : Text) : Text.Position := ({} : Text.Position).afterAll t.runes

lemma lexFrom_blank {gap : Text} (hg : Blank gap) (pos : Text.Position) (t : Text) :
    lexFrom pos 0 (gap ++ t).runes = lexFrom (pos.afterAll gap.runes) 0 t.runes := by
  induction gap generalizing pos with
  | nil => rfl
  | cons b gap ih =>
    have hb : b.toNat < 0x80 := by
      have hblank := hg b (by simp)
      simp only [Text.isBlank,Bool.or_eq_true,beq_iff_eq,or_assoc] at hblank
      rcases hblank with rfl | rfl | rfl | rfl <;> decide
    obtain ⟨r,hr,hruns⟩ := isGap_of_isBlank (hg b (by simp)) (gap ++ t)
    have hgap := Text.runes_cons_of_lt hb gap
    rw [Text.runes_cons_of_lt hb,List.cons.injEq] at hruns
    rw [List.cons_append,Text.runes_cons_of_lt hb,hgap,hruns.1,lexFrom,if_pos hr,
      ih fun c hc => hg c (by simp [hc])]
    rfl

lemma afterAll_append (pos : Text.Position) (as bs : List Rune) :
    pos.afterAll (as ++ bs) = (pos.afterAll as).afterAll bs := List.foldl_append

/-- The first lexeme of a layout and its place. -/
lemma Laid.lexFrom_cons {gap rest : Text} {l : Shape} {ls : List Shape} (hg : Blank gap)
    (hl : l.Fits) (ha : ∀ r ∈ rest.runes.head?, l.Apart r) (hr : Laid ls rest)
    (pos : Text.Position) : lexFrom pos 0 (gap ++ (l.text ++ rest)).runes =
      (lexFrom (pos.afterAll (gap ++ l.text).runes) 0 rest.runes).map
        (⟨l.kind,l.text,pos.afterAll gap.runes⟩ :: ·) := by
  have hword : ∀ y ∈ l.text.head?, Rune.payload? y = none :=
    payload?_of_runes_head fun r hr => (Script.Fits.head hl r hr).2
  rw [lexFrom_blank hg,lexFrom_lexeme hl (payload?_of_runes_head hr.head) ha,
    Text.runes_append _ hword,afterAll_append]

/-- The lexemes of a layout, wherever it stands. -/
lemma Laid.exists_lexFrom {ls : List Shape} {t : Text} (h : Laid ls t) (pos : Text.Position) :
    ∃ ms, lexFrom pos 0 t.runes = some ms ∧ ms.map Lexeme.shape = ls := by
  have hshapes : (lexFrom pos 0 t.runes).map (·.map Lexeme.shape) = some ls :=
    (lexFrom_shape pos {} 0 t.runes).trans h.shapes?
  exact Option.map_eq_some_iff.mp hshapes

/-- A lexeme with a letter in it is a name, if it is neither a string nor a number with an
exponent. -/
lemma Shape.Fits.kind_of_letter {l : Shape} (h : l.Fits) (hk : l.kind ≠ .string)
    (hb : Text.ascii 'r' ∈ l.text) : l.kind = .name := by
  have hr := h.madeOf (by decide) hb
  cases hkind : l.kind with
  | name => rfl
  | string => exact absurd hkind hk
  | float | int | operator | punctuation =>
    rw [hkind] at hr
    simp [MadeOf,Rune.isDigit,shortOperators,longOperators,punctuationMarks] at hr

/-- A name does not end in front of a letter of the row's name. -/
lemma not_apart_of_row {l : Shape} (hk : l.kind = .name) {b : UInt8} (hb : b ∈ Text.ofString "row")
    {t : Text} : ¬ ∀ r ∈ (Text.runes (b::t)).head?, l.Apart r := by
  have hrow : Text.ofString "row" = ['r','o','w'].map Text.ascii := by decide
  have hword : ∀ c ∈ ['r','o','w'], c.toNat < 0x80 ∧ continuesName (.char c) = true := by
    simp [continuesName_of_lt]
  obtain ⟨c,hc,rfl⟩ := List.mem_map.mp (hrow ▸ hb)
  obtain ⟨hlt,hcont⟩ := hword c hc
  intro ha
  have hapart := ha (.char c) (by rw [Text.runes_ascii hlt]; rfl)
  rw [Shape.Apart,hk] at hapart
  exact absurd (hcont.symm.trans hapart) (by simp)

/-- A lexeme that goes on into the row's name among code is a name, and it goes on to the bracket. -/
lemma Shape.Fits.name_of_row {l : Shape} (hl : l.Fits) {q v rest u : Text}
    (hlt : l.text = q ++ v) (hv : v ≠ []) (hw : v ++ rest = Text.ofString "row" ++ Text.ascii '['::u)
    (hq : Spot.code.after q = .code) (ha : ∀ r ∈ rest.runes.head?, l.Apart r) :
    l.kind = .name ∧ v = Text.ofString "row" := by
  have hrow : Text.ofString "row" = [Text.ascii 'r',Text.ascii 'o',Text.ascii 'w'] := by decide
  obtain ⟨b,v,rfl⟩ := List.exists_cons_of_ne_nil hv
  have hb : b = Text.ascii 'r' := by
    rw [hrow,List.cons_append,List.cons_append,List.cons.injEq] at hw
    exact hw.1
  have hk : l.kind ≠ .string := fun hk => hl.spot_ne_code hk hlt (by rw [hb]; decide) hq
  have hname := hl.kind_of_letter hk (by rw [hlt,hb]; simp)
  refine ⟨hname,?_⟩
  rcases List.append_eq_append_iff.mp hw with ⟨a,hrv,hrest⟩ | ⟨a,hrv,hrest⟩
  · cases a with
    | nil => simpa using hrv.symm
    | cons c a =>
      -- the word goes on behind the lexeme
      rw [hrest,List.cons_append] at ha
      exact absurd ha (not_apart_of_row hname (by simp [hrv]))
  · cases a with
    | nil => simpa using hrv
    | cons c a =>
      exfalso
      rw [List.cons_append,List.cons.injEq] at hrest
      have hbracket := hl.eq_openingBracket hk (by rw [hlt,hrv,← hrest.1]; simp)
      rw [hbracket] at hname
      simp [openingBracket] at hname

/-- Among code, the row's name in front of a bracket is the end of a name, and the bracket is a lexeme
of its own. If the name is the row's, it stands behind the text in front of it. -/
theorem Laid.lexFrom_row {ls : List Shape} {t p u : Text} (h : Laid ls t)
    (ht : t = p ++ (Text.ofString "row" ++ Text.ascii '['::u)) (hp : Spot.code.after p = .code)
    (pos : Text.Position) : ∃ ks l o ms, lexFrom pos 0 t.runes = some (ks ++ l::o::ms) ∧
      l.kind = .name ∧ o.shape = openingBracket ∧ Laid (ms.map Lexeme.shape) u ∧
      ((l.text = Text.ofString "row" ∧ l.pos = pos.afterAll p.runes) ∨
        ∃ x, x ≠ [] ∧ l.text = x ++ Text.ofString "row") := by
  induction h generalizing p pos with
  | @nil gap hg => exact absurd (hg (Text.ascii '[') (by simp [ht])) (by decide)
  | @cons gap rest l ls hg hl ha hr ih =>
    obtain ⟨q,rfl,hrest⟩ : ∃ q, p = gap ++ q ∧
        l.text ++ rest = q ++ (Text.ofString "row" ++ Text.ascii '['::u) :=
      hg.split (b := Text.ascii 'r') (by decide) ht
    rw [Spot.after_append,Spot.after_blank hg] at hp
    rw [Laid.lexFrom_cons hg hl ha hr]
    have hsplit : (∃ w, q = l.text ++ w ∧ rest = w ++ (Text.ofString "row" ++ Text.ascii '['::u)) ∨
        ∃ v, v ≠ [] ∧ l.text = q ++ v ∧ v ++ rest = Text.ofString "row" ++ Text.ascii '['::u := by
      rcases List.append_eq_append_iff.mp hrest with ⟨w,hw,hrw⟩ | ⟨v,hv,hvr⟩
      · exact Or.inl ⟨w,hw,hrw⟩
      · cases v with
        | nil => exact Or.inl ⟨[],by simpa using hv.symm,by simpa using hvr.symm⟩
        | cons c v => exact Or.inr ⟨c::v,by simp,hv,hvr.symm⟩
    rcases hsplit with ⟨w,rfl,hw⟩ | ⟨v,hv,hlv,hvr⟩
    · -- the name stands behind the first lexeme
      rw [Spot.after_append,hl.after] at hp
      obtain ⟨ks,m,o,ms,hlex,hm,ho,hms,hplace⟩ := ih hw hp (pos.afterAll (gap ++ l.text).runes)
      have hplain : ∀ y ∈ w.head?, Rune.payload? y = none := by
        intro y hy
        refine payload?_of_runes_head hr.head y ?_
        rw [hw,List.head?_append,Option.mem_def.mp hy]
        rfl
      refine ⟨⟨l.kind,l.text,pos.afterAll gap.runes⟩::ks,m,o,ms,by rw [hlex]; rfl,hm,ho,hms,?_⟩
      rwa [← afterAll_append,← Text.runes_append _ hplain,List.append_assoc] at hplace
    · -- the first lexeme goes on into the name
      obtain ⟨hname,rfl⟩ := hl.name_of_row hlv hv hvr hp ha
      obtain rfl : rest = Text.ascii '['::u := List.append_cancel_left hvr
      obtain ⟨ms,rfl,hms⟩ := hr.uncons_mark (by decide) (by decide)
      obtain ⟨os,hlex,hos⟩ := hr.exists_lexFrom (pos.afterAll (gap ++ l.text).runes)
      obtain ⟨o,ns,rfl,ho,hns⟩ := List.map_eq_cons_iff.mp hos
      refine ⟨[],⟨l.kind,l.text,pos.afterAll gap.runes⟩,o,ns,by rw [hlex]; rfl,hname,ho,
        by rwa [hns],?_⟩
      cases q with
      | nil => exact Or.inl ⟨hlv,by simp⟩
      | cons b q => exact Or.inr ⟨b::q,by simp,hlv⟩

lemma kind_of_equalsSign {l : Shape} (h : l.Fits) (ht : l.text = equalsSign) :
    l.kind = .operator := by
  have hk : (nextLexeme? (Text.runes equalsSign)).map (·.1) = some LexemeKind.operator := by
    decide +kernel
  exact Shape.kind_eq h ht hk

lemma Holder.ne_equalsSign {h : List Lexeme} {o c : Text} (hh : Holder h o c) :
    o ≠ equalsSign ∧ c ≠ equalsSign ∧ ∀ l ∈ h, l.shape.Fits → l.text ≠ equalsSign := by
  have hname : ∀ l : Lexeme, l.kind = .name → l.shape.Fits → l.text ≠ equalsSign := by
    intro l hl hf ht
    have hop : l.kind = .operator := kind_of_equalsSign hf ht
    rw [hl] at hop
    simp at hop
  have hrow : Text.ofString "row" ≠ equalsSign := by decide
  have hdot : Text.ofString "." ≠ equalsSign := by decide
  cases hh with
  | paren => exact ⟨by decide,by decide,by simp⟩
  | call hl => exact ⟨by decide,by decide,by simpa using hname _ hl⟩
  | row hr =>
    refine ⟨by decide,by decide,?_⟩
    simp only [List.mem_singleton,forall_eq]
    exact fun _ => hr ▸ hrow
  | view hr hd hl =>
    refine ⟨by decide,by decide,?_⟩
    simp only [List.mem_cons,List.not_mem_nil,or_false,forall_eq_or_imp,forall_eq]
    exact ⟨fun _ => hr ▸ hrow,fun _ => hd ▸ hdot,hname _ hl⟩

/-- No expression has an equals sign among its lexemes. -/
theorem composed_no_equalsSign :
    Composed fun ls => (∀ l ∈ ls, l.shape.Fits) → ∀ l ∈ ls, l.text ≠ equalsSign := by
  have hjoins : Joins fun ls => ∀ l ∈ ls, l.text ≠ equalsSign :=
    ⟨by simp,fun hu hv l hl => (List.mem_append.mp hl).elim (hu l) (hv l)⟩
  have hwords : equalsSign ∉
      Parser.constants.map (·.1) ++ (joints ++ leaders ++ [Text.ofString ":"]) := by decide
  refine hjoins.composed ?_ ?_ ?_
  · intro l hl hf
    rw [List.forall_mem_singleton]
    intro ht
    rcases hl with hl | hl
    · have hop : l.kind = .operator := kind_of_equalsSign hf ht
      simp [hop] at hl
    · exact hwords (List.mem_append_left _ (ht ▸ hl))
  · intro l hl
    rw [List.forall_mem_singleton]
    exact fun ht => hwords (List.mem_append_right _ (ht ▸ hl))
  · intro h o u c hh hf hu l hl
    obtain ⟨ho,hc,hholder⟩ := hh.ne_equalsSign
    simp only [List.mem_append,List.mem_cons,List.not_mem_nil,or_false] at hl
    rcases hl with hl | rfl | hl | rfl
    · exact hholder l hl (hf l hl)
    · exact ho
    · exact hu l hl
    · exact hc

lemma Expr.Spelled.ne_equalsSign {e : Expr} {ls : List Lexeme} (h : e.Spelled ls)
    (hf : ∀ l ∈ ls, l.shape.Fits) : ∀ l ∈ ls, l.text ≠ equalsSign :=
  composed_no_equalsSign.of_spelled e h hf

/-- Two ways to cut a list at an element: at the same place, or one of the elements is in a part of the
other way. -/
lemma append_cons_eq_cases {α : Type} {as bs us vs : List α} {q m : α}
    (h : us ++ m::vs = as ++ q::bs) : (us = as ∧ m = q ∧ vs = bs) ∨
      (∃ ws, us = as ++ q::ws) ∨ ∃ ws, as = us ++ m::ws ∧ vs = ws ++ q::bs := by
  rcases List.append_eq_append_iff.mp h with ⟨ws,rfl,hw⟩ | ⟨ws,rfl,hw⟩
  · cases ws with
    | nil => simp_all
    | cons w ws =>
      rw [List.cons_append,List.cons.injEq] at hw
      obtain ⟨rfl,hw⟩ := hw
      exact Or.inr (Or.inr ⟨ws,rfl,hw⟩)
  · cases ws with
    | nil => simp_all
    | cons w ws =>
      rw [List.cons_append,List.cons.injEq] at hw
      obtain ⟨rfl,-⟩ := hw
      exact Or.inr (Or.inl ⟨ws,rfl⟩)

/-- A statement with a target that ends where the given lexemes do. -/
def Clause.Targets (c : Clause) (as : List Lexeme) : Prop :=
  ∃ value before l u, c.value = some value ∧ as = before ++ l::u ∧ c.target.Spelled (l::u) ∧
    c.pos = l.pos

lemma Clause.Targets.append {c : Clause} {as : List Lexeme} (h : c.Targets as) (us : List Lexeme) :
    c.Targets (us ++ as) := by
  obtain ⟨value,before,l,u,hv,rfl,hs⟩ := h
  exact ⟨value,us ++ before,l,u,hv,by simp,hs⟩

lemma Clause.Spelled.targets {c : Clause} {as bs : List Lexeme} {q : Lexeme}
    (h : c.Spelled (as ++ q::bs)) (hf : ∀ l ∈ as ++ q::bs, l.shape.Fits)
    (hq : q.text = equalsSign) : c.Targets as := by
  obtain ⟨hpos,h⟩ := h
  cases hv : c.value with
  | none =>
    rw [hv] at h
    exact absurd hq (h.ne_equalsSign hf q (by simp))
  | some value =>
    rw [hv] at h
    obtain ⟨u,m,v,hsplit,ht,hm,hvs⟩ := h
    rw [hsplit] at hf
    rcases append_cons_eq_cases hsplit.symm with ⟨rfl,rfl,rfl⟩ | ⟨ws,rfl⟩ | ⟨ws,-,rfl⟩
    · obtain ⟨l,u,rfl⟩ := List.exists_cons_of_ne_nil ht.ne_nil
      refine ⟨value,[],l,u,hv,rfl,ht,?_⟩
      simpa using hpos.symm
    · exact absurd hq (ht.ne_equalsSign (fun l hl => hf l (List.mem_append_left _ hl)) q (by simp))
    · exact absurd hq (hvs.ne_equalsSign (fun l hl => hf l (by simp [hl])) q (by simp))

/-- In front of every equals sign there is the target of a statement. -/
theorem ClausesSpelled.targets {cs : List Clause} {ls as bs : List Lexeme} {q : Lexeme}
    (h : ClausesSpelled cs ls) (hf : ∀ l ∈ ls, l.shape.Fits) (hs : ls = as ++ q::bs)
    (hq : q.text = equalsSign) : ∃ (i : ℕ) (c : Clause), cs[i]? = some c ∧ c.Targets as := by
  induction h generalizing as bs with
  | nil => simp at hs
  | one h =>
    subst hs
    exact ⟨0,_,rfl,h.targets hf hq⟩
  | @semicolon cs ds u v m _ hm _ ih ih' =>
    rcases append_cons_eq_cases hs with ⟨rfl,rfl,rfl⟩ | ⟨ws,rfl⟩ | ⟨ws,rfl,rfl⟩
    · rw [hm] at hq
      exact absurd hq (by decide)
    · obtain ⟨i,c,hi,hc⟩ := ih (fun l hl => hf l (List.mem_append_left _ hl)) rfl
      refine ⟨i,c,?_,hc⟩
      rw [List.getElem?_append_left (List.getElem?_eq_some_iff.mp hi).1,hi]
    · obtain ⟨i,c,hi,hc⟩ := ih' (fun l hl => hf l (by simp [hl])) rfl
      refine ⟨cs.length+i,c,?_,?_⟩
      · rw [List.getElem?_append_right (by omega),Nat.add_sub_cancel_left,hi]
      · simpa using hc.append (u ++ [m])

lemma Laid.uncons_equals {ls : List Shape} {t : Text} (h : Laid ls (Text.ofString " = " ++ t)) :
    ∃ m ms, ls = m::ms ∧ m.text = equalsSign := by
  have htext : Text.ofString " = " ++ t =
      [Text.ascii ' '] ++ (equalsSign ++ Text.ascii ' '::t) := by
    have hsign : Text.ofString " = " = [Text.ascii ' '] ++ (equalsSign ++ [Text.ascii ' ']) := by
      decide
    rw [hsign]
    simp
  have hfits : Shape.Fits ⟨.operator,equalsSign⟩ := Or.inl ⟨'=',by decide,by decide⟩
  have happart : ∀ r ∈ (Text.runes (Text.ascii ' '::t)).head?,
      Shape.Apart ⟨.operator,equalsSign⟩ r := by
    intro r hr
    obtain ⟨x,hx,hruns⟩ := isGap_of_isBlank (show Text.isBlank (Text.ascii ' ') = true by decide) t
    rw [hruns,List.head?_cons,Option.mem_def,Option.some.injEq] at hr
    exact Shape.apart_of_isGap _ (hr ▸ hx)
  have hblank : Blank [Text.ascii ' '] := by
    simp only [Blank,List.mem_singleton,forall_eq]
    decide
  obtain ⟨ms,hlex,rfl⟩ := h.exists_lexFrom {}
  rw [htext,lexFrom_blank hblank,lexFrom_lexeme hfits (by simp; decide) happart] at hlex
  obtain ⟨ns,-,rfl⟩ := Option.map_eq_some_iff.mp hlex
  exact ⟨_,_,rfl,rfl⟩

/-- A string alone is spelled by no other expression. -/
lemma Expr.Spelled.eq_string {e : Expr} {s : Lexeme} (h : e.Spelled [s]) (hf : s.shape.Fits)
    (hk : s.kind = .string) : e = .string (decodeLiteral s.text) := by
  have hjoin : ∀ {a b : Expr} {u v : List Lexeme} {w : Lexeme}, [s] = u ++ w::v → a.Spelled u →
      b.Spelled v → False := by
    intro a b u v w he ha hb
    cases u with
    | nil => exact ha.ne_nil rfl
    | cons x u => simp at he
  have hlead : ∀ {a : Expr} {u : List Lexeme} {w : Lexeme}, [s] = w::u → a.Spelled u → False := by
    intro a u w he ha
    rw [List.cons.injEq] at he
    exact ha.ne_nil he.2.symm
  have hconstant : s.text ∉ constants.map (·.1) := by
    intro hm
    have hname := kindsOf_constants.kind_mem hf hm
    rw [List.mem_singleton,show s.shape.kind = _ from hk] at hname
    simp at hname
  cases e with
  | string t =>
    simp only [Spelled] at h
    obtain ⟨l,hl,-,rfl⟩ := h
    rw [List.cons.injEq] at hl
    rw [hl.1]
  | or a b | and a b | compare op a b | arith op a b =>
    simp only [Spelled] at h
    obtain ⟨u,w,v,he,-,ha,hb⟩ := h
    exact (hjoin he ha hb).elim
  | not a | signed op a =>
    simp only [Spelled] at h
    obtain ⟨w,u,he,-,ha⟩ := h
    exact (hlead he ha).elim
  | bool b | nil =>
    simp only [Spelled] at h
    obtain ⟨l,hl,hm⟩ := h
    rw [List.cons.injEq] at hl
    exact absurd (List.mem_map_of_mem hm) (hl.1 ▸ hconstant)
  | _ =>
    -- more than one lexeme, or one of another kind
    simp only [Spelled] at h
    simp_all

/-- What stands in brackets at the end of a cell, if it is a string, is all of the key. -/
lemma key_eq_singleton {e : Expr} {before k ks : List Lexeme} {o o' s : Lexeme} (he : e.Spelled k)
    (hf : ∀ l ∈ k, l.shape.Fits) (ho : o.text = Text.ofString "[")
    (hs : s.text ≠ Text.ofString "]") (h : ks ++ [o,s] = before ++ o'::k) :
    k = [s] ∧ ks = before ∧ o = o' := by
  obtain ⟨k,x,rfl⟩ := List.eq_nil_or_concat k |>.resolve_left he.ne_nil
  rw [List.concat_eq_append] at *
  have hlast : (ks ++ [o]) ++ [s] = (before ++ o'::k) ++ [x] := by simpa using h
  obtain ⟨hrest,rfl⟩ := List.append_singleton_inj.mp hlast
  rcases List.eq_nil_or_concat k with rfl | ⟨k,y,rfl⟩
  · obtain ⟨rfl,rfl⟩ := List.append_singleton_inj.mp hrest
    exact ⟨rfl,rfl,rfl⟩
  · -- the bracket would be open at the end of the key
    exfalso
    rw [List.concat_eq_append] at *
    have hlast : ks ++ [o] = (before ++ o'::k) ++ [y] := by simpa using hrest
    obtain ⟨-,rfl⟩ := List.append_singleton_inj.mp hlast
    have hbehind := (he.nested hf (p := (Text.ofString "[",Text.ofString "]")) (by decide)).behind
      [o,s] ⟨k,by simp⟩
    have hne : Text.ofString "[" ≠ Text.ofString "]" := by decide
    simp only [occurrences_cons,occurrences_nil,ho,hs,hne,if_true,if_false] at hbehind
    omega

/-- In front of the bracket stands the name of the view, or that of the row. -/
lemma ViewSpelled.last {view : Option Text} {ks before v : List Lexeme} {l x : Lexeme}
    (h : ViewSpelled view v) (hs : ks ++ [l] = before ++ x::v) :
    (view = none ∧ l = x) ∨ view = some l.text := by
  cases view with
  | none =>
    simp only [ViewSpelled] at h
    subst h
    exact Or.inl ⟨rfl,(List.append_singleton_inj.mp hs).2⟩
  | some w =>
    obtain ⟨d,y,rfl,-,-,rfl⟩ := h
    have hend : ks ++ [l] = (before ++ [x,d]) ++ [y] := by simpa using hs
    exact Or.inr (by rw [(List.append_singleton_inj.mp hend).2])

/-- A statement whose target ends with a name, and a string in brackets, stores under the string. The
name is the row's or that of a view. -/
lemma Clause.Targets.store {c : Clause} {ks : List Lexeme} {l o s b : Lexeme}
    (h : c.Targets (ks ++ [l,o,s,b])) (hf : ∀ m ∈ ks ++ [l,o,s,b], m.shape.Fits)
    (ho : o.text = Text.ofString "[") (hs : s.kind = .string) (hb : b.kind = .punctuation)
    {st : Statement} (hst : c.check = .ok st) :
    ∃ view value, st = .store view (some (.string (decodeLiteral s.text))) value ∧
      ((view = none ∧ l.text = Text.ofString "row" ∧ c.pos = l.pos) ∨ view = some l.text) := by
  obtain ⟨pos,target,_⟩ := c
  obtain ⟨value,before,r,u,rfl,hsplit,hspelled,hpos⟩ := h
  have hmark : ∀ m : Lexeme, m.shape.Fits → m.text = Text.ofString "[" ∨ m.text = Text.ofString "]" →
      m.kind = .punctuation := fun m hm =>
    kind_of_bracket (p := (Text.ofString "[",Text.ofString "]")) hm (by decide)
  have hsf : s.shape.Fits := hf s (by simp)
  have hsb : s.text ≠ Text.ofString "]" := by
    intro ht
    rw [hmark s hsf (Or.inr ht)] at hs
    simp at hs
  cases target with
  | var n p =>
    simp only [Expr.Spelled] at hspelled
    obtain ⟨x,hx,hk,-⟩ := hspelled
    rw [hx] at hsplit
    have hlast : (ks ++ [l,o,s]) ++ [b] = before ++ [x] := by simpa using hsplit
    obtain ⟨-,rfl⟩ := List.append_singleton_inj.mp hlast
    rw [hk] at hb
    simp at hb
  | cell view key =>
    simp only [Clause.check,Except.ok.injEq] at hst
    simp only [Expr.Spelled] at hspelled
    obtain ⟨x,v,o',k,b',hx,hr,hview,ho',hkey,-⟩ := hspelled
    rw [hx] at hsplit
    have hlast : (ks ++ [l,o,s]) ++ [b] = (before ++ x::(v ++ o'::k)) ++ [b'] := by
      simpa using hsplit
    obtain ⟨hbody,-⟩ := List.append_singleton_inj.mp hlast
    have hkf : ∀ m ∈ k, m.shape.Fits := by
      intro m hm
      exact hf m (by rw [hsplit]; simp [hm])
    cases key with
    | none =>
      exfalso
      simp only [OptionSpelled] at hkey
      subst hkey
      have hend : (ks ++ [l,o]) ++ [s] = (before ++ x::v) ++ [o'] := by simpa using hbody
      obtain ⟨-,rfl⟩ := List.append_singleton_inj.mp hend
      rw [hmark s hsf (Or.inl ho')] at hs
      simp at hs
    | some e =>
      have hkeys : (ks ++ [l]) ++ [o,s] = (before ++ x::v) ++ o'::k := by simpa using hbody
      obtain ⟨rfl,hfront,rfl⟩ := key_eq_singleton hkey hkf ho hsb hkeys
      obtain rfl := hkey.eq_string hsf hs
      refine ⟨view,value,hst.symm,?_⟩
      rcases hview.last hfront with ⟨rfl,rfl⟩ | rfl
      · rw [List.cons.injEq] at hx
        exact Or.inl ⟨rfl,hr,by rw [← hx.1]; exact hpos⟩
      · exact Or.inr rfl
  | _ => simp [Clause.check] at hst

def statementPlace? (code : Text) (i : ℕ) : Option Text.Position :=
  (whole? clauses code).bind fun cs => cs[i]?.map Clause.pos

lemma mapM_check_getElem? {cs : List Clause} {sts : List Statement}
    (h : cs.mapM Clause.check = .ok sts) {i : ℕ} {c : Clause} (hi : cs[i]? = some c) :
    ∃ st, sts[i]? = some st ∧ c.check = .ok st := by
  obtain ⟨hlen,hall⟩ := List.forall₂_iff_get.mp (mapM_eq_ok_iff.mp h)
  obtain ⟨hlt,rfl⟩ := List.getElem?_eq_some_iff.mp hi
  exact ⟨_,List.getElem?_eq_getElem (hlen ▸ hlt),hall i hlt (hlen ▸ hlt)⟩

/-- A name that goes on into the row's name is the name of no view. -/
lemma viewOf_row (x : Text) :
    viewOf (some (x ++ Text.ofString "row")) = .error (.unknownView (x ++ Text.ofString "row")) := by
  have hlast : ∀ w ∈ [Text.ofString "str",Text.ofString "int",Text.ofString "float"],
      w.getLast? ≠ some (Text.ascii 'w') := by decide
  have hrow : (x ++ Text.ofString "row").getLast? = some (Text.ascii 'w') := by
    rw [List.getLast?_append_of_ne_nil _ (by decide)]
    decide
  have hne : ∀ w ∈ [Text.ofString "str",Text.ofString "int",Text.ofString "float"],
      x ++ Text.ofString "row" ≠ w := fun w hw he => hlast w hw (he ▸ hrow)
  simp only [viewOf,beq_iff_eq]
  rw [if_neg (hne _ (by simp)),if_neg (hne _ (by simp)),if_neg (hne _ (by simp))]

/-- A program stores under a name in a statement that stands behind a given text. Where the row's name
is only the end of a name there, that is taken for a view, which there is not. -/
def Program.StoresBehind (program : Program) (front name : Text) : Prop :=
  ∃ (i : ℕ) (view : Option Text) (value : Expr),
    program.statements[i]? = some (.store view (some (.string name)) value) ∧
      ((view = none ∧ statementPlace? program.source i = some (placeAfter front)) ∨
        ∃ w, viewOf view = .error (.unknownView w))

/-- A cell with a name in quotes, among code in front of an equals sign, is the target of a statement
that stores under this name. -/
theorem Program.store_of_cell {code front back name : Text} {program : Program}
    (hn : PlainName name) (h : Program.compile code = .ok program)
    (hcode : code = front ++ (cellText none (quoteWith (Text.ascii '"') name) ++
      (Text.ofString " = " ++ back))) (hf : Spot.code.after front = .code) :
    program.StoresBehind front name := by
  obtain ⟨hsource,ls,cs,hlex,hcs,hsts⟩ := Program.compile_eq_ok_iff.mp h
  have hlaid := Program.laid h hlex
  have hcell : code = front ++ (Text.ofString "row" ++ Text.ascii '['::
      (quoteWith (Text.ascii '"') name ++ Text.ascii ']'::(Text.ofString " = " ++ back))) := by
    have hopen : Text.ofString "[" = [Text.ascii '['] := by decide
    have hclose : Text.ofString "]" = [Text.ascii ']'] := by decide
    rw [hcode]
    simp [cellText,viewWords,hopen,hclose]
  obtain ⟨ks,l,o,ms,hls,-,ho,hms,hplace⟩ := hlaid.lexFrom_row hcell hf {}
  obtain rfl : ls = ks ++ l::o::ms := Option.some_injective _ (hlex.symm.trans hls)
  obtain ⟨shapes,hshapes,htail⟩ := hms.split_name hn
  obtain ⟨s,ms,rfl,hs,hms⟩ := List.map_eq_cons_iff.mp hshapes
  obtain ⟨b,ms,rfl,hb,hms⟩ := List.map_eq_cons_iff.mp hms
  obtain ⟨q,qs,rfl,hq⟩ := htail.uncons_equals
  obtain ⟨m,rest,rfl,hm,-⟩ := List.map_eq_cons_iff.mp hms
  have hfits : ∀ x ∈ ks ++ l::o::s::b::m::rest, x.shape.Fits :=
    fun x hx => hlaid.fits _ (List.mem_map_of_mem hx)
  have hequals : m.text = equalsSign := (congrArg Shape.text hm).trans hq
  have hsplit : ks ++ l::o::s::b::m::rest = (ks ++ [l,o,s,b]) ++ m::rest := by simp
  obtain ⟨i,c,hi,hc⟩ := (clauses_spelled hcs).targets hfits hsplit hequals
  obtain ⟨st,hst,hcheck⟩ := mapM_check_getElem? hsts hi
  obtain ⟨view,value,rfl,hview⟩ := hc.store
    (fun x hx => hfits x (hsplit ▸ List.mem_append_left _ hx)) (congrArg Shape.text ho)
    (congrArg Shape.kind hs) (congrArg Shape.kind hb) hcheck
  have hname : decodeLiteral s.text = name := by
    rw [show s.text = _ from congrArg Shape.text hs]
    exact decodeLiteral_quoteWith _ hn.utf8 hn.slash
  rw [hname] at hst
  refine ⟨i,view,value,hst,?_⟩
  rcases hview with ⟨rfl,hrow,hpos⟩ | rfl
  · left
    refine ⟨rfl,?_⟩
    have hwhole : whole? clauses code = some cs := whole?_eq_some_iff.mpr ⟨_,hlex,hcs⟩
    rcases hplace with ⟨-,hl⟩ | ⟨x,hx,hl⟩
    · simp [statementPlace?,hsource,hwhole,hi,hpos,hl,placeAfter]
    · exact absurd (hl.symm.trans hrow) (by simpa using hx)
  · right
    rcases hplace with ⟨hl,-⟩ | ⟨x,-,hl⟩
    · exact ⟨_,by rw [hl]; exact viewOf_row []⟩
    · exact ⟨_,by rw [hl]; exact viewOf_row x⟩

end CellScript.Script
