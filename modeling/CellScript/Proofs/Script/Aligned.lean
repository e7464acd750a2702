import Mathlib
import CellScript.Proofs.Script.Alike
import CellScript.Proofs.Script.Levels

/-! Parsing of lexemes that match: the places of lexemes do not matter, column names may have been
exchanged for positions, and an expression ends in front of a mark that cannot go on with it as it
ends with its source. -/
namespace CellScript.Script

/-- The marks that end every expression. -/
def stopMarks : List Text := [Text.ofString ";",Text.ofString "=",Text.ofString ")"]

/-- A name in brackets, and a position in brackets that K allows for it. -/
structure Swapped (K : Text → Int64 → Prop) (o n c o' i c' : Lexeme) : Prop where
  opening : o.shape = o'.shape
  closing : c.shape = c'.shape
  mark : o.kind = .punctuation
  bracket : o.text = Text.ofString "["
  bracket' : c.text = Text.ofString "]"
  name : n.kind = .string
  nameClear : n.text ∉ leaders
  number : i.kind = .int
  numberClear : i.text ∉ leaders
  allowed : ∃ p, Number.readInt i.text = .ok p ∧ K (decodeLiteral n.text) p

namespace Swapped

variable {K : Text → Int64 → Prop} {o n c o' i c' : Lexeme} (h : Swapped K o n c o' i c')
include h

lemma opening_text : o'.text = Text.ofString "[" :=
  (congrArg Shape.text h.opening).symm.trans h.bracket

lemma opening_kind : o'.kind = .punctuation :=
  (congrArg Shape.kind h.opening).symm.trans h.mark

lemma closing_text : c'.text = Text.ofString "]" :=
  (congrArg Shape.text h.closing).symm.trans h.bracket'

end Swapped

/-- Lexemes that match up to their places, with more lexemes behind them on the right. Names in
brackets may have been swapped for positions. -/
inductive Matches (K : Text → Int64 → Prop) (tail : List Lexeme) :
    List Lexeme → List Lexeme → Prop
  | stop : Matches K tail [] tail
  | word {l l' : Lexeme} {ls ls' : List Lexeme} : l.shape = l'.shape → Matches K tail ls ls' →
      Matches K tail (l::ls) (l'::ls')
  | key {o n c o' i c' : Lexeme} {ls ls' : List Lexeme} : Swapped K o n c o' i c' →
      Matches K tail ls ls' → Matches K tail (o::n::c::ls) (o'::i::c'::ls')

/-- Lexemes in front of a tail that starts with a mark that ends every expression. The parentheses
in front of it are closed. -/
structure Sealed (tail ls : List Lexeme) : Prop where
  head : ∀ t ∈ tail.head?, t.text ∈ stopMarks ∧ t.kind ∈ [LexemeKind.operator,.punctuation]
  fits : tail ≠ [] → ∀ l ∈ ls, l.shape.Fits
  closed : tail ≠ [] → ∀ s, s <:+ ls →
    occurrences (Text.ofString "(") s ≤ occurrences (Text.ofString ")") s

lemma Sealed.suffix {tail ls s : List Lexeme} (h : Sealed tail ls) (hs : s <:+ ls) :
    Sealed tail s :=
  ⟨h.head,fun ht l hl => h.fits ht l (hs.mem hl),fun ht u hu => h.closed ht u (hu.trans hs)⟩

structure Aligned (K : Text → Int64 → Prop) (tail ls ls' : List Lexeme) : Prop where
  lexemes : Matches K tail ls ls'
  closed : Sealed tail ls

/-- Results that agree: none on both sides, or related ones with aligned lexemes left. -/
def Agree {α : Type} (K : Text → Int64 → Prop) (tail : List Lexeme) (R : α → α → Prop) :
    Option (α × List Lexeme) → Option (α × List Lexeme) → Prop
  | none,none => True
  | some (a,rest),some (b,rest') => R a b ∧ Aligned K tail rest rest'
  | _,_ => False

section

variable {K : Text → Int64 → Prop} {tail : List Lexeme}

lemma Matches.length_eq {ls ls' : List Lexeme} (h : Matches K tail ls ls') :
    ls'.length = ls.length + tail.length := by
  induction h with
  | stop => simp
  | word hl hr ih =>
    simp only [List.length_cons,ih]
    omega
  | key hs hr ih =>
    simp only [List.length_cons,ih]
    omega

lemma Agree.cases {α : Type} {R : α → α → Prop} {x y : Option (α × List Lexeme)}
    (h : Agree K tail R x y) : (x = none ∧ y = none) ∨
      ∃ a r b r', x = some (a,r) ∧ y = some (b,r') ∧ R a b ∧ Aligned K tail r r' := by
  match x,y,h with
  | none,none,_ => exact Or.inl ⟨rfl,rfl⟩
  | some (a,r),some (b,r'),h => exact Or.inr ⟨a,r,b,r',rfl,rfl,h.1,h.2⟩

lemma Agree.bind {α β : Type} {R : α → α → Prop} {S : β → β → Prop}
    {x y : Option (α × List Lexeme)} {f g : α × List Lexeme → Option (β × List Lexeme)}
    (h : Agree K tail R x y)
    (hf : ∀ a r b r', x = some (a,r) → y = some (b,r') → R a b → Aligned K tail r r' →
      Agree K tail S (f (a,r)) (g (b,r'))) : Agree K tail S (x.bind f) (y.bind g) := by
  rcases h.cases with ⟨rfl,rfl⟩ | ⟨a,r,b,r',rfl,rfl,hR,hA⟩
  · trivial
  · exact hf a r b r' rfl rfl hR hA

lemma Agree.or {α : Type} {R : α → α → Prop} {x y u v : Option (α × List Lexeme)}
    (h : Agree K tail R x y) (hu : Agree K tail R u v) : Agree K tail R (x.or u) (y.or v) := by
  rcases h.cases with ⟨rfl,rfl⟩ | ⟨a,r,b,r',rfl,rfl,hR,hA⟩
  · simpa using hu
  · exact ⟨hR,hA⟩

lemma Agree.optional {α : Type} {R : α → α → Prop} {p q : Parser α} {ls ls' : List Lexeme}
    (h : Agree K tail R (p ls) (q ls')) (ha : Aligned K tail ls ls') :
    Agree K tail (Option.Rel R) (Parser.optional p ls) (Parser.optional q ls') := by
  rcases h.cases with ⟨hp,hq⟩ | ⟨a,r,b,r',hp,hq,hR,hA⟩
  · simp only [Parser.optional,hp,hq]
    exact ⟨.none,ha⟩
  · simp only [Parser.optional,hp,hq]
    exact ⟨.some hR,hA⟩

/-- Aligned lexemes start alike, or with a name in brackets that was swapped for a position. -/
lemma Aligned.cases {ls ls' : List Lexeme} (h : Aligned K tail ls ls') :
    (ls = [] ∧ ls' = tail) ∨
      (∃ l r l' r', ls = l::r ∧ ls' = l'::r' ∧ l.shape = l'.shape ∧ Aligned K tail r r') ∨
      ∃ o n c r o' i c' r', ls = o::n::c::r ∧ ls' = o'::i::c'::r' ∧ Swapped K o n c o' i c' ∧
        Aligned K tail r r' := by
  obtain ⟨hm,hs⟩ := h
  cases hm with
  | stop => exact Or.inl ⟨rfl,rfl⟩
  | @word l l' r r' hl hr =>
    exact Or.inr (Or.inl ⟨l,r,l',r',rfl,rfl,hl,hr,hs.suffix (List.suffix_cons l r)⟩)
  | @key o n c o' i c' r r' hk hr =>
    refine Or.inr (Or.inr ⟨o,n,c,r,o',i,c',r',rfl,rfl,hk,hr,hs.suffix ?_⟩)
    exact List.suffix_append [o,n,c] r

/-- A mark that no parser but the one for it takes. -/
def HeldBack (l : Lexeme) : Prop :=
  l.text ∈ Text.ofString "["::stopMarks ∧ l.kind ∈ [LexemeKind.operator,.punctuation]

def takeHead {α : Type} (f : Lexeme → Option α) : Parser α
  | [] => none
  | l::ls => (f l).map (·,ls)

/-- One lexeme is taken alike when only its shape counts. -/
lemma Aligned.takeHead {α : Type} {R : α → α → Prop} {f g : Lexeme → Option α}
    (hfg : ∀ l l' : Lexeme, l.shape = l'.shape → Option.Rel R (f l) (g l'))
    (hg : ∀ l, HeldBack l → g l = none) {ls ls' : List Lexeme} (h : Aligned K tail ls ls') :
    Agree K tail R (Script.takeHead f ls) (Script.takeHead g ls') := by
  have hf : ∀ l l' : Lexeme, l.shape = l'.shape → g l' = none → f l = none := by
    intro l l' hl hn
    have hr := hfg l l' hl
    rw [hn] at hr
    generalize f l = x at hr
    cases hr
    rfl
  rcases h.cases with ⟨rfl,rfl⟩ | ⟨l,r,l',r',rfl,rfl,hl,hr⟩ | ⟨o,n,c,r,o',i,c',r',rfl,rfl,hk,hr⟩
  · cases htail : ls' with
    | nil => trivial
    | cons t rest =>
      have ht := h.closed.head t (by rw [htail]; rfl)
      simp only [Script.takeHead,hg t ⟨List.mem_cons_of_mem _ ht.1,ht.2⟩]
      trivial
  · have hR := hfg l l' hl
    simp only [Script.takeHead]
    generalize f l = x at hR
    generalize g l' = y at hR
    cases hR with
    | none => trivial
    | some hR => exact ⟨hR,hr⟩
  · have ho : HeldBack o' :=
      ⟨by rw [hk.opening_text]; exact List.mem_cons_self,by simp [hk.opening_kind]⟩
    have hn := hg o' ho
    simp only [Script.takeHead,hn,hf o o' hk.opening hn]
    trivial

/-- Names are read alike when what is made of them is. -/
lemma Aligned.takeName {α : Type} {R : α → α → Prop} {f : Lexeme → α} {ls ls' : List Lexeme}
    (h : Aligned K tail ls ls') (hR : ∀ l l', l.shape = l'.shape → R (f l) (f l')) :
    Agree K tail R (Script.takeHead (fun l => if l.kind = .name then some (f l) else none) ls)
      (Script.takeHead (fun l => if l.kind = .name then some (f l) else none) ls') := by
  refine h.takeHead ?_ ?_
  · intro l l' hl
    rw [show l.kind = l'.kind from congrArg Shape.kind hl]
    split
    · exact .some (hR l l' hl)
    · exact .none
  · rintro l ⟨-,hk⟩
    rw [if_neg]
    rintro hn
    simp [hn] at hk

namespace Parser

lemma agree_expect {word : Text} (hw : word ∉ Text.ofString "["::stopMarks) {ls ls' : List Lexeme}
    (h : Aligned K tail ls ls') :
    Agree K tail (fun _ _ => True) (expect word ls) (expect word ls') := by
  have he : expect word = Script.takeHead fun l => if isWord l word then some () else none := by
    funext ls
    cases ls with
    | nil => rfl
    | cons l ls =>
      simp only [expect,Script.takeHead]
      split <;> rfl
  rw [he]
  refine h.takeHead ?_ ?_
  · intro l l' hl
    have ht : l.text = l'.text := congrArg Shape.text hl
    rw [isWord,isWord,ht]
    split
    · exact .some trivial
    · exact .none
  · intro l hl
    have hne : l.text ≠ word := by
      rintro rfl
      exact hw hl.1
    simp [isWord,hne]

lemma choose?_congr {α : Type} (words : List (Text × α)) {l l' : Lexeme} (h : l.text = l'.text) :
    choose? words l = choose? words l' := by
  simp only [choose?,isWord,h]

lemma agree_oneOf {α : Type} {words : List (Text × α)}
    (hw : ∀ w ∈ words.map (·.1), w ∉ Text.ofString "["::stopMarks) {ls ls' : List Lexeme}
    (h : Aligned K tail ls ls') :
    Agree K tail (fun a b => a = b) (oneOf words ls) (oneOf words ls') := by
  have he : oneOf words = Script.takeHead (choose? words) := by
    funext ls
    cases ls <;> rfl
  rw [he]
  refine h.takeHead ?_ ?_
  · intro l l' hl
    rw [choose?_congr words (congrArg Shape.text hl)]
    generalize choose? words l' = x
    cases x with
    | none => exact .none
    | some a => exact .some rfl
  · exact fun l hl => choose?_eq_none fun hm => hw _ hm hl.1

lemma literal?_congr {l l' : Lexeme} (h : l.shape = l'.shape) : literal? l = literal? l' := by
  have hk : l.kind = l'.kind := congrArg Shape.kind h
  have ht : l.text = l'.text := congrArg Shape.text h
  simp only [literal?,hk,ht]

lemma alike_of_constant {l : Lexeme} {e : Expr}
    (h : (literal? l).or (choose? constants l) = some e) : e.Alike K e := by
  rw [Option.or_eq_some_iff] at h
  rcases h with h | ⟨-,h⟩
  · unfold literal? at h
    split at h
    · obtain ⟨x,-,rfl⟩ := Option.map_eq_some_iff.mp h
      simp only [Expr.Alike]
    · obtain ⟨x,-,rfl⟩ := Option.map_eq_some_iff.mp h
      simp only [Expr.Alike]
    · simp only [Option.some.injEq] at h
      subst h
      simp only [Expr.Alike]
    · simp at h
  · have hm := choose?_eq_some h
    simp only [constants,List.mem_cons,Prod.mk.injEq,List.not_mem_nil,or_false] at hm
    rcases hm with ⟨-,rfl⟩ | ⟨-,rfl⟩ | ⟨-,rfl⟩ | ⟨-,rfl⟩ | ⟨-,rfl⟩ | ⟨-,rfl⟩ <;>
      simp only [Expr.Alike]

lemma agree_constant {ls ls' : List Lexeme} (h : Aligned K tail ls ls') :
    Agree K tail (Expr.Alike K) (constant ls) (constant ls') := by
  have he : constant = Script.takeHead fun l => (literal? l).or (choose? constants l) := by
    funext ls
    cases ls with
    | nil => rfl
    | cons l ls => simp only [constant,Script.takeHead,Option.orElse_eq_or]
  rw [he]
  refine h.takeHead ?_ ?_
  · intro l l' hl
    rw [literal?_congr hl,choose?_congr constants (congrArg Shape.text hl)]
    cases hx : (literal? l').or (choose? constants l') with
    | none => exact .none
    | some e => exact .some (alike_of_constant hx)
  · rintro l ⟨ht,hk⟩
    have hnone : ∀ w ∈ Text.ofString "["::stopMarks, w ∉ constants.map (·.1) := by decide
    rw [choose?_eq_none (hnone _ ht),Option.or_none,literal?]
    rcases List.mem_cons.mp hk with hk | hk
    · rw [hk]
    · rw [List.mem_singleton.mp hk]

lemma agree_var {ls ls' : List Lexeme} (h : Aligned K tail ls ls') :
    Agree K tail (Expr.Alike K) (var ls) (var ls') := by
  have he : var = Script.takeHead fun l =>
      if l.kind = .name then some (Expr.var l.text l.pos) else none := by
    funext ls
    cases ls with
    | nil => rfl
    | cons l ls =>
      simp only [var,Script.takeHead]
      split <;> rfl
  rw [he]
  refine h.takeName fun l l' hl => ?_
  rw [show l.text = l'.text from congrArg Shape.text hl]
  simp only [Expr.Alike]
  exact ⟨l'.pos,rfl⟩

lemma agree_viewName {ls ls' : List Lexeme} (h : Aligned K tail ls ls') :
    Agree K tail (fun a b => a = b) (viewName ls) (viewName ls') := by
  have he : ∀ ls, viewName ls = (expect "." ls).bind fun found =>
      Script.takeHead (fun l => if l.kind = .name then some l.text else none) found.2 := by
    intro ls
    simp only [viewName,Option.bind_eq_bind]
    congr 1
    funext found
    obtain ⟨_,rest⟩ := found
    cases rest with
    | nil => rfl
    | cons l rest =>
      simp only [Script.takeHead]
      split <;> rfl
  rw [he,he]
  refine (agree_expect (by decide) h).bind ?_
  intro _ r _ r' _ _ _ hr
  exact hr.takeName fun l l' hl => congrArg Shape.text hl

/-- Two loops agree when their steps do. -/
lemma agree_extend {α : Type} {R : α → α → Prop} {p q : α → Parser α} (hp : ∀ a, Shrinks (p a))
    (hq : ∀ a, Shrinks (q a)) {n : ℕ}
    (hpq : ∀ a b ls ls', R a b → Aligned K tail ls ls' → ls.length ≤ n →
      Agree K tail R (p a ls) (q b ls')) {a b : α} {ls ls' : List Lexeme} {f f' : ℕ} (hR : R a b)
    (h : Aligned K tail ls ls') (hn : ls.length ≤ n) (hf : ls.length ≤ f) (hf' : ls'.length ≤ f') :
    Agree K tail R (extend p f a ls) (extend q f' b ls') := by
  induction f using Nat.strong_induction_on generalizing f' a b ls ls' with
  | _ f ih =>
    rcases (hpq a b ls ls' hR h hn).cases with ⟨hx,hy⟩ | ⟨a',r,b',r',hx,hy,hR',hA⟩
    · rw [extend_of_none hx,extend_of_none hy]
      exact ⟨hR,h⟩
    · have hs := hp a hx
      have hs' := hq b hy
      obtain ⟨m,rfl⟩ : ∃ m, f = m+1 := ⟨f-1,by omega⟩
      obtain ⟨m',rfl⟩ : ∃ m', f' = m'+1 := ⟨f'-1,by omega⟩
      rw [extend_of_some hx,extend_of_some hy]
      exact ih m (by omega) hR' hA (by omega) (by omega) (by omega)

/-- Parsers for nested expressions that agree on fewer than n lexemes. -/
structure Nest (K : Text → Int64 → Prop) (tail : List Lexeme) (n : ℕ)
    (expr expr' : Parser Expr) : Prop where
  sound : Sound expr
  sound' : Sound expr'
  agree : ∀ ls ls', Aligned K tail ls ls' → ls.length < n →
    Agree K tail (Expr.Alike K) (expr ls) (expr' ls')
  literal : 0 < n → ∀ l e rest, literal? l = some e → l.text ∉ leaders → Clear joints rest →
    expr (l::rest) = some (e,rest) ∧ expr' (l::rest) = some (e,rest)

variable {n : ℕ} {expr expr' : Parser Expr} {ls ls' : List Lexeme}

lemma agree_chain {β : Type} {operand operand' : Parser Expr} {operators : List (Text × β)}
    {join : β → Expr → Expr → Expr}
    (hw : ∀ w ∈ operators.map (·.1), w ∉ Text.ofString "["::stopMarks)
    (hj : ∀ op a b a' b', Expr.Alike K a a' → Expr.Alike K b b' →
      (join op a b).Alike K (join op a' b')) (hs : Shrinks operand) (hs' : Shrinks operand')
    (ho : ∀ ls ls', Aligned K tail ls ls' → ls.length ≤ n →
      Agree K tail (Expr.Alike K) (operand ls) (operand' ls'))
    (h : Aligned K tail ls ls') (hn : ls.length ≤ n) :
    Agree K tail (Expr.Alike K) (chain operand operators join ls)
      (chain operand' operators join ls') := by
  unfold chain
  simp only [Option.bind_eq_bind]
  refine (ho ls ls' h hn).bind ?_
  intro a r b r' hx hy hR hA
  have hlen := hs hx
  refine agree_extend (p := link operand operators join) (q := link operand' operators join)
    (link_shrinks hs) (link_shrinks hs') (n := n) ?_ hR hA (hlen.le.trans hn) le_rfl
    le_rfl
  intro a b s s' hab hss hsn
  unfold link
  simp only [Option.bind_eq_bind]
  refine (agree_oneOf hw hss).bind ?_
  rintro op u _ u' hu - rfl huu
  obtain ⟨w,rfl,-⟩ := oneOf_eq_some hu
  simp only [List.length_cons] at hsn
  refine (ho u u' huu (by omega)).bind ?_
  intro c v d v' _ _ hcd hvv
  exact ⟨hj op a c b d hab hcd,hvv⟩

lemma agree_list (hN : Nest K tail n expr expr') (h : Aligned K tail ls ls')
    (hn : ls.length < n) : Agree K tail (ListAlike K) (list expr ls) (list expr' ls') := by
  have hshrinks : ∀ {p : Parser Expr}, Sound p → ∀ items : List Expr, Shrinks fun ls =>
      (expect "," ls).bind fun comma => (p comma.2).bind fun next =>
        some (items ++ [next.1],next.2) := by
    intro p hp items s a rest hs
    simp only [Option.bind_eq_some_iff] at hs
    obtain ⟨⟨_,u⟩,hu,⟨e,v⟩,hv,hs⟩ := hs
    simp only [Option.some.injEq,Prod.mk.injEq] at hs
    obtain ⟨w,rfl,-⟩ := expect_eq_some hu
    have hlt : v.length < u.length := hp.shrinks hv
    simp only [List.length_cons]
    rw [← hs.2]
    omega
  unfold list
  simp only [Option.bind_eq_bind]
  refine (hN.agree ls ls' h hn).bind ?_
  intro a r b r' hx hy hR hA
  have hlen := hN.sound.shrinks hx
  refine agree_extend (hshrinks hN.sound) (hshrinks hN.sound') (n := n-1) (R := ListAlike K) ?_ ?_ hA
    (show r.length ≤ n-1 by omega) le_rfl le_rfl
  · intro as bs s s' has hss hsn
    refine (agree_expect (by decide) hss).bind ?_
    intro _ u _ u' hu _ _ huu
    obtain ⟨w,rfl,-⟩ := expect_eq_some hu
    simp only [List.length_cons] at hsn
    refine (hN.agree u u' huu (by omega)).bind ?_
    intro c v d v' _ _ hcd hvv
    exact ⟨listAlike_append has hcd,hvv⟩
  · simp only [ListAlike]
    exact ⟨b,[],rfl,hR,rfl⟩

lemma optionAlike_of_rel {a b : Option Expr} (h : Option.Rel (Expr.Alike K) a b) :
    OptionAlike K a b := by
  cases h with
  | none => rfl
  | some h =>
    simp only [OptionAlike]
    exact ⟨_,rfl,h⟩

lemma agree_optional (hN : Nest K tail n expr expr') (h : Aligned K tail ls ls')
    (hn : ls.length < n) :
    Agree K tail (OptionAlike K) (optional expr ls) (optional expr' ls') := by
  rcases (Agree.optional (hN.agree ls ls' h hn) h).cases with ⟨hx,-⟩ | ⟨a,r,b,r',hx,hy,hR,hA⟩
  · unfold optional at hx
    split at hx <;> simp at hx
  · rw [hx,hy]
    exact ⟨optionAlike_of_rel hR,hA⟩

lemma length_le_of_optional {α : Type} {p : Parser α} (hp : Shrinks p) {s rest : List Lexeme}
    {o : Option α} (h : optional p s = some (o,rest)) : rest.length ≤ s.length := by
  rcases optional_eq_some h with ⟨a,-,ha⟩ | ⟨-,rfl,-⟩
  · exact (hp ha).le
  · exact le_rfl

lemma agree_sliceTail (hN : Nest K tail n expr expr') (h : Aligned K tail ls ls')
    (hn : ls.length ≤ n) :
    Agree K tail (OptionAlike K) (sliceTail expr ls) (sliceTail expr' ls') := by
  unfold sliceTail
  simp only [Option.bind_eq_bind]
  refine (agree_expect (by decide) h).bind ?_
  intro _ r _ r' hr _ _ hrr
  obtain ⟨w,rfl,-⟩ := expect_eq_some hr
  exact agree_optional hN hrr hn

lemma agree_subscript (hN : Nest K tail n expr expr') (view : Option Text)
    (h : Aligned K tail ls ls') (hn : ls.length < n) :
    Agree K tail (Expr.Alike K) (subscript expr view ls) (subscript expr' view ls') := by
  unfold subscript
  simp only [Option.bind_eq_bind]
  refine (agree_optional hN h hn).bind ?_
  intro lo r lo' r' hr _ hlo hrr
  have hlen := length_le_of_optional hN.sound.shrinks hr
  refine (Agree.optional (agree_sliceTail hN hrr (hlen.trans hn.le)) hrr).bind ?_
  intro t u t' u' _ _ ht huu
  refine (agree_expect (by decide) huu).bind ?_
  intro _ v _ v' _ _ _ hvv
  cases ht with
  | none =>
    refine ⟨?_,hvv⟩
    simp only [Expr.Alike]
    exact ⟨lo',rfl,Or.inl hlo⟩
  | @some hi hi' hR =>
    refine ⟨?_,hvv⟩
    simp only [Expr.Alike]
    exact ⟨lo',hi',rfl,hlo,hR⟩

/-- A name in brackets and the position it was swapped for. -/
lemma agree_swapped (hN : Nest K tail n expr expr') (hn : 0 < n) (view : Option Text)
    {o x c o' i c' : Lexeme} {v v' : List Lexeme} (hk : Swapped K o x c o' i c')
    (h : Aligned K tail v v') :
    Agree K tail (Expr.Alike K) (subscript expr view (x::c::v))
      (subscript expr' view (i::c'::v')) := by
  obtain ⟨p,hp,hK⟩ := hk.allowed
  have hclear : ∀ (c : Lexeme) rest, c.text = Text.ofString "]" → Clear joints (c::rest) := by
    intro c rest hc y hy
    simp only [List.head?_cons,Option.mem_def,Option.some.injEq] at hy
    rw [← hy,hc]
    decide
  have hx : literal? x = some (.string (decodeLiteral x.text)) := by
    simp only [literal?,hk.name]
  have hi : literal? i = some (.int p) := by
    simp only [literal?,hk.number,hp]
    rfl
  have hleft := (hN.literal hn x _ (c::v) hx hk.nameClear (hclear c v hk.bracket')).1
  have hright := (hN.literal hn i _ (c'::v') hi hk.numberClear (hclear c' v' hk.closing_text)).2
  rw [subscript_cell view (optional_of_some hleft) hk.bracket',
    subscript_cell view (optional_of_some hright) hk.closing_text]
  refine ⟨?_,h⟩
  simp only [Expr.Alike]
  exact ⟨some (.int p),rfl,Or.inr ⟨_,p,rfl,rfl,hK⟩⟩

lemma agree_rowRef (hN : Nest K tail n expr expr') (h : Aligned K tail ls ls')
    (hn : ls.length ≤ n) : Agree K tail (Expr.Alike K) (rowRef expr ls) (rowRef expr' ls') := by
  unfold rowRef
  simp only [Option.bind_eq_bind]
  refine (agree_expect (by decide) h).bind ?_
  intro _ r _ r' hr _ _ hrr
  obtain ⟨w,rfl,-⟩ := expect_eq_some hr
  refine (Agree.optional (agree_viewName hrr) hrr).bind ?_
  intro view u view' u' hu _ hview huu
  obtain ⟨used,rfl,-⟩ := optional_viewName_eq_some hu
  have hveq : view = view' := by
    cases hview with
    | none => rfl
    | some h => rw [h]
  subst hveq
  simp only [List.length_cons,List.length_append] at hn
  change Agree K tail (Expr.Alike K)
    ((expect "[" u).bind fun found => subscript expr view found.2)
    ((expect "[" u').bind fun found => subscript expr' view found.2)
  -- Only here a bracket is taken, so only here a swapped key is reached.
  rcases huu.cases with ⟨rfl,rfl⟩ | ⟨l,v,l',v',rfl,rfl,hl,hvv⟩ |
    ⟨o,x,c,v,o',i,c',v',rfl,rfl,hk,hvv⟩
  · have hnone : expect "[" u' = none := by
      refine expect_eq_none fun t ht => ?_
      have hstop := (huu.closed.head t ht).1
      have hno : ∀ w ∈ stopMarks, w ∉ [Text.ofString "["] := by decide
      exact hno _ hstop
    rw [hnone]
    trivial
  · have ht : l.text = l'.text := congrArg Shape.text hl
    simp only [List.length_cons] at hn
    by_cases hw : l.text = Text.ofString "["
    · rw [expect_cons hw,expect_cons (ht ▸ hw)]
      exact agree_subscript hN view hvv (show v.length < n by omega)
    · simp only [expect,isWord,ht ▸ hw,hw,beq_iff_eq,if_false]
      trivial
  · rw [expect_cons hk.bracket,expect_cons hk.opening_text]
    exact agree_swapped hN (by omega) view hk hvv

/-- A parenthesis that was opened on the left is not closed by the tail alone. -/
lemma agree_close {o : Lexeme} {k s s' : List Lexeme} (h : Aligned K tail s s')
    (hs : Sealed tail (o::(k ++ s))) (ho : o.text = Text.ofString "(")
    (hk : (∀ l ∈ k, l.shape.Fits) → Nested (Text.ofString "(") (Text.ofString ")") k) :
    Agree K tail (fun _ _ => True) (expect ")" s) (expect ")" s') := by
  rcases h.cases with ⟨rfl,rfl⟩ | ⟨l,v,l',v',rfl,rfl,hl,hvv⟩ | ⟨x,y,c,v,x',i,c',v',rfl,rfl,hsw,-⟩
  · cases s' with
    | nil => trivial
    | cons t rest =>
      exfalso
      have hfit := hs.fits (by simp)
      have hle := hs.closed (by simp) _ List.suffix_rfl
      have htotal := (hk fun l hl => hfit l (by simp [hl])).total
      have hne : ¬ Text.ofString "(" = Text.ofString ")" := by decide
      simp only [List.append_nil,occurrences_cons,ho,hne,if_true,if_false] at hle
      omega
  · have ht : l.text = l'.text := congrArg Shape.text hl
    by_cases hw : l.text = Text.ofString ")"
    · rw [expect_cons hw,expect_cons (ht ▸ hw)]
      exact ⟨trivial,hvv⟩
    · simp only [expect,isWord,ht ▸ hw,hw,beq_iff_eq,if_false]
      trivial
  · have hno : ∀ (l : Lexeme) rest, l.text = Text.ofString "[" → expect ")" (l::rest) = none := by
      intro l rest hl
      refine expect_eq_none fun z hz => ?_
      simp only [List.head?_cons,Option.mem_def,Option.some.injEq] at hz
      rw [← hz,hl]
      decide
    rw [hno x _ hsw.bracket,hno x' _ hsw.opening_text]
    trivial

lemma nested_of_itemsSpelled {es : List Expr} {k : List Lexeme} (h : ItemsSpelled es k)
    (hf : ∀ l ∈ k, l.shape.Fits) : Nested (Text.ofString "(") (Text.ofString ")") k := by
  have hp : (Text.ofString "(",Text.ofString ")") ∈ brackets := by decide
  rcases (composed_nested hp).of_itemsSpelled es h with rfl | hn
  · exact .nil
  · exact hn hf

lemma agree_paren (hN : Nest K tail n expr expr') (h : Aligned K tail ls ls')
    (hn : ls.length ≤ n) : Agree K tail (Expr.Alike K) (paren expr ls) (paren expr' ls') := by
  unfold paren
  simp only [Option.bind_eq_bind]
  refine (agree_expect (by decide) h).bind ?_
  intro _ r _ r' hr _ _ hrr
  obtain ⟨o,rfl,ho⟩ := expect_eq_some hr
  simp only [List.length_cons] at hn
  refine (hN.agree r r' hrr (by omega)).bind ?_
  intro a s b s' hs _ hab hss
  obtain ⟨k,rfl,hk⟩ := hN.sound hs
  have hp : (Text.ofString "(",Text.ofString ")") ∈ brackets := by decide
  refine (agree_close hss h.closed ho fun hf => hk.nested hf hp).bind ?_
  intro _ v _ v' _ _ _ hvv
  refine ⟨?_,hvv⟩
  simp only [Expr.Alike]
  exact ⟨b,rfl,hab⟩

lemma agree_call (hN : Nest K tail n expr expr') (h : Aligned K tail ls ls')
    (hn : ls.length ≤ n) : Agree K tail (Expr.Alike K) (call expr ls) (call expr' ls') := by
  have hnone : ∀ {p : Parser Expr} {l : Lexeme} {rest : List Lexeme}, l.kind ≠ .name →
      call p (l::rest) = none := by
    intro p l rest hl
    simp [call,hl]
  rcases h.cases with ⟨rfl,rfl⟩ | ⟨l,r,l',r',rfl,rfl,hl,hrr⟩ | ⟨x,y,c,v,x',i,c',v',rfl,rfl,hsw,-⟩
  · cases ls' with
    | nil => trivial
    | cons t rest =>
      have hk := (h.closed.head t rfl).2
      rw [hnone (l := t) (by rintro ht; simp [ht] at hk)]
      trivial
  · have hk : l.kind = l'.kind := congrArg Shape.kind hl
    have ht : l.text = l'.text := congrArg Shape.text hl
    by_cases hname : l.kind = .name
    · have hname' : l'.kind = .name := hk ▸ hname
      simp only [List.length_cons] at hn
      simp only [call,hname,hname',ne_eq,not_true_eq_false,if_false,Option.bind_eq_bind]
      refine (agree_expect (by decide) hrr).bind ?_
      intro _ s _ s' hs _ _ hss
      obtain ⟨o,rfl,ho⟩ := expect_eq_some hs
      simp only [List.length_cons] at hn
      refine (Agree.optional (agree_list hN hss (by omega)) hss).bind ?_
      intro args u args' u' hu _ hargs huu
      have hitems : ∃ k, s = k ++ u ∧ ItemsSpelled (args.getD []) k := by
        rcases optional_eq_some hu with ⟨es,rfl,hes⟩ | ⟨rfl,rfl,-⟩
        · obtain ⟨used,hused,hi,-⟩ := list_eq_some hN.sound hes
          exact ⟨used,hused,hi⟩
        · exact ⟨[],rfl,rfl⟩
      obtain ⟨k,rfl,hk⟩ := hitems
      have hsealed := h.closed.suffix (List.suffix_cons l (o::(k ++ u)))
      refine (agree_close huu hsealed ho (nested_of_itemsSpelled hk)).bind ?_
      intro _ v _ v' _ _ _ hvv
      refine ⟨?_,hvv⟩
      simp only [Expr.Alike,ht]
      refine ⟨args'.getD [],rfl,?_⟩
      cases hargs with
      | none => rfl
      | some ha => exact ha
    · rw [hnone hname,hnone (hk ▸ hname)]
      trivial
  · rw [hnone (l := x) (by simp [hsw.mark]),hnone (l := x') (by simp [hsw.opening_kind])]
    trivial

lemma agree_primary (hN : Nest K tail n expr expr') (h : Aligned K tail ls ls')
    (hn : ls.length ≤ n) :
    Agree K tail (Expr.Alike K) (primary expr ls) (primary expr' ls') := by
  simp only [primary,Option.orElse_eq_orElse,Option.orElse_eq_or]
  exact (agree_constant h).or ((agree_rowRef hN h hn).or ((agree_call hN h hn).or
    ((agree_var h).or (agree_paren hN h hn))))

/-- Aligned lexemes start with the same word of some words, or with none of them. -/
lemma aligned_word {words : List Text} (hw : ∀ w ∈ words, w ∉ Text.ofString "["::stopMarks)
    (h : Aligned K tail ls ls') : (Clear words ls ∧ Clear words ls') ∨
      ∃ l r l' r', ls = l::r ∧ ls' = l'::r' ∧ l.text = l'.text ∧ Aligned K tail r r' := by
  rcases h.cases with ⟨rfl,rfl⟩ | ⟨l,r,l',r',rfl,rfl,hl,hrr⟩ | ⟨o,x,c,v,o',i,c',v',rfl,rfl,hsw,-⟩
  · refine Or.inl ⟨by simp [Clear],fun t ht hm => ?_⟩
    exact hw _ hm (List.mem_cons_of_mem _ (h.closed.head t ht).1)
  · exact Or.inr ⟨l,r,l',r',rfl,rfl,congrArg Shape.text hl,hrr⟩
  · refine Or.inl ⟨fun t ht hm => hw _ hm ?_,fun t ht hm => hw _ hm ?_⟩
    · simp only [List.head?_cons,Option.mem_def,Option.some.injEq] at ht
      rw [← ht,hsw.bracket]
      exact List.mem_cons_self
    · simp only [List.head?_cons,Option.mem_def,Option.some.injEq] at ht
      rw [← ht,hsw.opening_text]
      exact List.mem_cons_self

lemma signs_words : ∀ w ∈ signs.map (·.1), w ∉ Text.ofString "["::stopMarks := by decide

lemma signed_of_clear (h : Clear (signs.map (·.1)) ls) : signed expr ls = primary expr ls := by
  cases ls with
  | nil => rfl
  | cons l ls => rw [signed,choose?_eq_none (h l rfl)]

lemma agree_signed (hN : Nest K tail n expr expr') (h : Aligned K tail ls ls')
    (hn : ls.length ≤ n) : Agree K tail (Expr.Alike K) (signed expr ls) (signed expr' ls') := by
  induction ls generalizing ls' with
  | nil =>
    rcases aligned_word signs_words h with ⟨h1,h2⟩ | ⟨_,_,_,_,h1,-⟩
    · rw [signed_of_clear h1,signed_of_clear h2]
      exact agree_primary hN h hn
    · simp at h1
  | cons l r ih =>
    rcases aligned_word signs_words h with
      ⟨h1,h2⟩ | ⟨_,_,l',r',h1,rfl,ht,hrr⟩
    · rw [signed_of_clear h1,signed_of_clear h2]
      exact agree_primary hN h hn
    · obtain ⟨rfl,rfl⟩ := List.cons.inj h1
      rw [signed,signed,choose?_congr signs ht]
      cases choose? signs l' with
      | none => exact agree_primary hN h hn
      | some sign =>
        simp only [List.length_cons] at hn
        rcases (ih hrr (by omega)).cases with ⟨hx,hy⟩ | ⟨a,s,b,s',hx,hy,hab,hss⟩
        · simp only [hx,hy]
          trivial
        · simp only [hx,hy]
          refine ⟨?_,hss⟩
          simp only [Expr.Alike]
          exact ⟨b,rfl,hab⟩

lemma agree_product (hN : Nest K tail n expr expr') (h : Aligned K tail ls ls')
    (hn : ls.length ≤ n) : Agree K tail (Expr.Alike K) (product expr ls) (product expr' ls') := by
  refine agree_chain (by decide) ?_ (Sound.signed hN.sound).shrinks
    (Sound.signed hN.sound').shrinks (fun _ _ => agree_signed hN) h hn
  intro op a b a' b' ha hb
  simp only [Expr.Alike]
  exact ⟨a',b',rfl,ha,hb⟩

lemma agree_sum (hN : Nest K tail n expr expr') (h : Aligned K tail ls ls')
    (hn : ls.length ≤ n) : Agree K tail (Expr.Alike K) (sum expr ls) (sum expr' ls') := by
  refine agree_chain (by decide) ?_ (Sound.product hN.sound).shrinks
    (Sound.product hN.sound').shrinks (fun _ _ => agree_product hN) h hn
  intro op a b a' b' ha hb
  simp only [Expr.Alike]
  exact ⟨a',b',rfl,ha,hb⟩

lemma agree_comparison (hN : Nest K tail n expr expr') (h : Aligned K tail ls ls')
    (hn : ls.length ≤ n) :
    Agree K tail (Expr.Alike K) (comparison expr ls) (comparison expr' ls') := by
  unfold comparison
  simp only [Option.bind_eq_bind]
  refine (agree_sum hN h hn).bind ?_
  intro a r b r' hr _ hab hrr
  have hlen := (Sound.sum hN.sound).shrinks hr
  have htail : Agree K tail (fun x y => x.1 = y.1 ∧ x.2.Alike K y.2)
      ((oneOf comparisons r).bind fun x => (sum expr x.2).bind fun y => some ((x.1,y.1),y.2))
      ((oneOf comparisons r').bind fun x => (sum expr' x.2).bind fun y =>
        some ((x.1,y.1),y.2)) := by
    refine (agree_oneOf (by decide) hrr).bind ?_
    rintro op s _ s' hs - rfl hss
    obtain ⟨w,rfl,-⟩ := oneOf_eq_some hs
    simp only [List.length_cons] at hlen
    refine (agree_sum hN hss (show s.length ≤ n by omega)).bind ?_
    intro c u d u' _ _ hcd huu
    exact ⟨⟨rfl,hcd⟩,huu⟩
  simp only [Option.pure_def]
  rcases htail.cases with ⟨hx,hy⟩ | ⟨⟨op,c⟩,s,⟨op',d⟩,s',hx,hy,⟨rfl,hcd⟩,hss⟩
  · simp only [hx,hy]
    exact ⟨hab,hrr⟩
  · simp only [hx,hy]
    refine ⟨?_,hss⟩
    simp only [Expr.Alike]
    exact ⟨b,d,rfl,hab,hcd⟩

lemma negations_words : ∀ w ∈ negations.map (·.1), w ∉ Text.ofString "["::stopMarks := by decide

lemma negation_of_clear (h : Clear (negations.map (·.1)) ls) :
    negation expr ls = comparison expr ls := by
  cases ls with
  | nil => rfl
  | cons l ls => rw [negation,choose?_eq_none (h l rfl)]

lemma agree_negation (hN : Nest K tail n expr expr') (h : Aligned K tail ls ls')
    (hn : ls.length ≤ n) :
    Agree K tail (Expr.Alike K) (negation expr ls) (negation expr' ls') := by
  induction ls generalizing ls' with
  | nil =>
    rcases aligned_word negations_words h with ⟨h1,h2⟩ | ⟨_,_,_,_,h1,-⟩
    · rw [negation_of_clear h1,negation_of_clear h2]
      exact agree_comparison hN h hn
    · simp at h1
  | cons l r ih =>
    rcases aligned_word negations_words h with
      ⟨h1,h2⟩ | ⟨_,_,l',r',h1,rfl,ht,hrr⟩
    · rw [negation_of_clear h1,negation_of_clear h2]
      exact agree_comparison hN h hn
    · obtain ⟨rfl,rfl⟩ := List.cons.inj h1
      rw [negation,negation,choose?_congr negations ht]
      cases choose? negations l' with
      | none => exact agree_comparison hN h hn
      | some u =>
        simp only [List.length_cons] at hn
        rcases (ih hrr (by omega)).cases with ⟨hx,hy⟩ | ⟨a,s,b,s',hx,hy,hab,hss⟩
        · simp only [hx,hy]
          exact agree_comparison hN h hn
        · simp only [hx,hy]
          refine ⟨?_,hss⟩
          simp only [Expr.Alike]
          exact ⟨b,rfl,hab⟩

lemma agree_conjunction (hN : Nest K tail n expr expr') (h : Aligned K tail ls ls')
    (hn : ls.length ≤ n) :
    Agree K tail (Expr.Alike K) (conjunction expr ls) (conjunction expr' ls') := by
  refine agree_chain (by decide) ?_ (Sound.negation hN.sound).shrinks
    (Sound.negation hN.sound').shrinks (fun _ _ => agree_negation hN) h hn
  intro op a b a' b' ha hb
  simp only [Expr.Alike]
  exact ⟨a',b',rfl,ha,hb⟩

lemma agree_disjunction (hN : Nest K tail n expr expr') (h : Aligned K tail ls ls')
    (hn : ls.length ≤ n) :
    Agree K tail (Expr.Alike K) (disjunction expr ls) (disjunction expr' ls') := by
  refine agree_chain (by decide) ?_ (Sound.conjunction hN.sound).shrinks
    (Sound.conjunction hN.sound').shrinks (fun _ _ => agree_conjunction hN) h hn
  intro op a b a' b' ha hb
  simp only [Expr.Alike]
  exact ⟨a',b',rfl,ha,hb⟩

/-- Expressions agree at all depths that are enough for the lexemes. -/
theorem agree_expr {d d' : ℕ} (h : Aligned K tail ls ls') (hd : ls.length < d)
    (hd' : ls'.length < d') : Agree K tail (Expr.Alike K) (Parser.expr d ls) (Parser.expr d' ls') := by
  induction d generalizing d' ls ls' with
  | zero => omega
  | succ d ih =>
    obtain ⟨d',rfl⟩ : ∃ m, d' = m+1 := ⟨d'-1,by omega⟩
    have hlen := h.lexemes.length_eq
    refine agree_disjunction (n := ls.length) ⟨Sound.expr d,Sound.expr d',?_,?_⟩ h le_rfl
    · intro r r' hrr hr
      have hlen' := hrr.lexemes.length_eq
      exact ih hrr (by omega) (by omega)
    · intro hpos l e rest hl ht hc
      obtain ⟨k,rfl⟩ : ∃ m, d = m+1 := ⟨d-1,by omega⟩
      obtain ⟨k',rfl⟩ : ∃ m, d' = m+1 := ⟨d'-1,by omega⟩
      exact ⟨disjunction_of_literal hl ht hc,disjunction_of_literal hl ht hc⟩

theorem agree_expression (h : Aligned K tail ls ls') :
    Agree K tail (Expr.Alike K) (expression ls) (expression ls') :=
  agree_expr h (Nat.lt_succ_self _) (Nat.lt_succ_self _)

end Parser

end

lemma Matches.of_shapes {K : Text → Int64 → Prop} {ls ls' : List Lexeme}
    (h : ls.map Lexeme.shape = ls'.map Lexeme.shape) (tail : List Lexeme) :
    Matches K tail ls (ls' ++ tail) := by
  induction ls generalizing ls' with
  | nil =>
    obtain rfl : ls' = [] := by simpa using h.symm
    exact .stop
  | cons l ls ih =>
    cases ls' with
    | nil => simp at h
    | cons l' ls' =>
      simp only [List.map_cons,List.cons.injEq] at h
      exact .word h.1 (ih h.2)

/-- A mark that ends every expression, or the end of the source. -/
def Stops (tail : List Lexeme) : Prop :=
  ∀ t ∈ tail.head?, t.text ∈ stopMarks ∧ t.kind ∈ [LexemeKind.operator,.punctuation]

/-- The lexemes of an expression are aligned with lexemes of the same shapes in front of a mark. -/
lemma Expr.Spelled.aligned {e : Expr} {ls ls' tail : List Lexeme} (h : e.Spelled ls)
    (hf : ∀ l ∈ ls, l.shape.Fits) (hs : ls.map Lexeme.shape = ls'.map Lexeme.shape)
    (ht : Stops tail) : Aligned (fun _ _ => False) tail ls (ls' ++ tail) := by
  have hn := h.nested hf (p := (Text.ofString "(",Text.ofString ")")) (by decide)
  exact ⟨.of_shapes hs tail,ht,fun _ => hf,fun _ => hn.behind⟩

lemma spelled_of_compile {src : Text} {f : Formula} {ls : List Lexeme}
    (hf : Formula.compile src = .ok f) (hs : lex? src = some ls) : f.expr.Spelled ls := by
  obtain ⟨-,-,ls',hs',hp⟩ := Formula.compile_eq_ok_iff.mp hf
  obtain rfl : ls' = ls := Option.some_injective _ (hs'.symm.trans hs)
  obtain ⟨u,rfl,hu⟩ := Parser.Sound.expression hp
  rwa [List.append_nil]

/-- An expression is found again in front of a mark that ends it. -/
theorem expr_of_compile {src : Text} {f : Formula} {ls ls' tail : List Lexeme}
    (hf : Formula.compile src = .ok f) (hs : lex? src = some ls)
    (hl : ls.map Lexeme.shape = ls'.map Lexeme.shape) (ht : Stops tail) {d : ℕ}
    (hd : (ls' ++ tail).length < d) :
    ∃ e, f.expr.SameTree e ∧ Parser.expr d (ls' ++ tail) = some (e,tail) := by
  have hspelled := spelled_of_compile hf hs
  obtain ⟨-,-,ls₁,hs₁,hp⟩ := Formula.compile_eq_ok_iff.mp hf
  obtain rfl : ls₁ = ls := Option.some_injective _ (hs₁.symm.trans hs)
  have hfits : ∀ l ∈ ls₁, l.shape.Fits :=
    fun l hl => (hspelled.laid hs).fits _ (List.mem_map_of_mem hl)
  have hagree := Parser.agree_expr (hspelled.aligned hfits hl ht) (Nat.lt_succ_self _) hd
  rw [show Parser.expr (ls₁.length+1) ls₁ = some (f.expr,[]) from hp] at hagree
  rcases hagree.cases with ⟨h,-⟩ | ⟨e,r,e',r',he,he',halike,hrest⟩
  · simp at h
  · simp only [Option.some.injEq,Prod.mk.injEq] at he
    obtain ⟨rfl,rfl⟩ := he
    cases hrest.lexemes with
    | stop => exact ⟨e',halike,he'⟩

/-- Sources with the same lexemes compile to the same tree. -/
theorem compile_of_shapes {src code : Text} {f : Formula} {ls : List Lexeme}
    (hf : Formula.compile src = .ok f) (hs : lex? src = some ls)
    (hc : Laid (ls.map Lexeme.shape) code) :
    ∃ g, Formula.compile code = .ok g ∧ f.expr.SameTree g.expr := by
  obtain ⟨ls',hs',hm⟩ := Option.map_eq_some_iff.mp hc.shapes?
  have hend : Stops [] := by simp [Stops]
  obtain ⟨e,he,hp⟩ := expr_of_compile (d := ls'.length+1) hf hs hm.symm hend (by simp)
  rw [List.append_nil] at hp
  refine ⟨⟨code,e⟩,Formula.compile_eq_ok_iff.mpr ⟨?_,rfl,ls',hs',hp⟩,he⟩
  cases ls with
  | nil =>
    obtain ⟨l,hl,-⟩ := (spelled_of_compile hf hs).chained.opens
    simp at hl
  | cons l ls => exact hc.not_blankOnly

end CellScript.Script
