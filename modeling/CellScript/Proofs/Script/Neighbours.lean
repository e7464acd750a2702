import Mathlib
import CellScript.Proofs.Script.Layout
import CellScript.Proofs.Script.Spelling

/-! The lexemes of a spelled expression: which of them stand next to each other, how their brackets
nest, and how many there are. -/
namespace CellScript.Script

/-- The words and marks between two expressions. -/
def joints : List Text :=
  Parser.disjunctions.map (·.1) ++ Parser.conjunctions.map (·.1) ++
    Parser.comparisons.map (·.1) ++ Parser.products.map (·.1) ++ Parser.sums.map (·.1) ++
    [Text.ofString ","]

/-- The words and marks before an expression. -/
def leaders : List Text := Parser.negations.map (·.1) ++ Parser.signs.map (·.1)

/-- Lexemes that are expressions on their own. -/
def IsAtom (l : Lexeme) : Prop :=
  l.kind ∈ [LexemeKind.float,.int,.string,.name] ∨ l.text ∈ Parser.constants.map (·.1)

/-- What stands in front of a pair of brackets, and the brackets. -/
inductive Holder : List Lexeme → Text → Text → Prop
  | paren : Holder [] (Text.ofString "(") (Text.ofString ")")
  | call {l : Lexeme} : l.kind = .name → Holder [l] (Text.ofString "(") (Text.ofString ")")
  | row {r : Lexeme} : r.text = Text.ofString "row" →
      Holder [r] (Text.ofString "[") (Text.ofString "]")
  | view {r d l : Lexeme} : r.text = Text.ofString "row" → d.text = Text.ofString "." →
      l.kind = .name → Holder [r,d,l] (Text.ofString "[") (Text.ofString "]")

def Perhaps (P : List Lexeme → Prop) (ls : List Lexeme) : Prop := ls = [] ∨ P ls

/-- What brackets may hold: nothing, one form, or up to two of them around a colon. -/
def Held (P : List Lexeme → Prop) (ls : List Lexeme) : Prop :=
  Perhaps P ls ∨ ∃ u m v, ls = u ++ m::v ∧ m.text = Text.ofString ":" ∧ Perhaps P u ∧ Perhaps P v

/-- A property of lexemes that all ways of putting expressions together keep. -/
structure Composed (P : List Lexeme → Prop) : Prop where
  atom : ∀ l, IsAtom l → P [l]
  join : ∀ u w v, w.text ∈ joints → P u → P v → P (u ++ w::v)
  lead : ∀ w u, w.text ∈ leaders → P u → P (w::u)
  hold : ∀ h o u c, Holder h o.text c.text → Held P u → P (h ++ o::(u ++ [c]))

namespace Composed

variable {P : List Lexeme → Prop}

section

variable (hP : Composed P)
include hP

lemma joinWord {α : Type} {words : List (Text × α)} {a : α} {u v : List Lexeme} {w : Lexeme}
    (hw : (w.text,a) ∈ words) (hs : words.map (·.1) ⊆ joints) (hu : P u) (hv : P v) :
    P (u ++ w::v) :=
  hP.join u w v (hs (List.mem_map_of_mem hw)) hu hv

lemma leadWord {α : Type} {words : List (Text × α)} {a : α} {u : List Lexeme} {w : Lexeme}
    (hw : (w.text,a) ∈ words) (hs : words.map (·.1) ⊆ leaders) (hu : P u) : P (w::u) :=
  hP.lead w u (hs (List.mem_map_of_mem hw)) hu

lemma holdRow {view : Option Text} {r o c : Lexeme} {v u : List Lexeme}
    (hr : r.text = Text.ofString "row") (hv : ViewSpelled view v)
    (ho : o.text = Text.ofString "[") (hc : c.text = Text.ofString "]") (hu : Held P u) :
    P (r::(v ++ o::(u ++ [c]))) := by
  cases view with
  | none =>
    simp only [ViewSpelled] at hv
    subst hv
    refine hP.hold [r] o u c ?_ hu
    rw [ho,hc]
    exact .row hr
  | some view =>
    obtain ⟨d,l,rfl,hd,hl,-⟩ := hv
    refine hP.hold [r,d,l] o u c ?_ hu
    rw [ho,hc]
    exact .view hr hd hl

end

mutual

/-- What every way of putting expressions together keeps holds of all their spellings. -/
theorem of_spelled (hP : Composed P) : ∀ (e : Expr) {ls : List Lexeme}, e.Spelled ls → P ls
  | .or a b,_,h => by
    simp only [Expr.Spelled] at h
    obtain ⟨u,w,v,rfl,hw,ha,hb⟩ := h
    exact hP.joinWord hw (by decide) (of_spelled hP a ha) (of_spelled hP b hb)
  | .and a b,_,h => by
    simp only [Expr.Spelled] at h
    obtain ⟨u,w,v,rfl,hw,ha,hb⟩ := h
    exact hP.joinWord hw (by decide) (of_spelled hP a ha) (of_spelled hP b hb)
  | .not e,_,h => by
    simp only [Expr.Spelled] at h
    obtain ⟨w,u,rfl,hw,he⟩ := h
    exact hP.leadWord hw (by decide) (of_spelled hP e he)
  | .compare op a b,_,h => by
    simp only [Expr.Spelled] at h
    obtain ⟨u,w,v,rfl,hw,ha,hb⟩ := h
    exact hP.joinWord hw (by decide) (of_spelled hP a ha) (of_spelled hP b hb)
  | .arith op a b,_,h => by
    simp only [Expr.Spelled] at h
    obtain ⟨u,w,v,rfl,hw,ha,hb⟩ := h
    exact hP.joinWord hw (by decide) (of_spelled hP a ha) (of_spelled hP b hb)
  | .signed op e,_,h => by
    simp only [Expr.Spelled] at h
    obtain ⟨w,u,rfl,hw,he⟩ := h
    exact hP.leadWord hw (by decide) (of_spelled hP e he)
  | .float _,_,h => by
    simp only [Expr.Spelled] at h
    obtain ⟨l,rfl,hl⟩ := h
    exact hP.atom l (Or.inl (by simp [hl]))
  | .int _,_,h => by
    simp only [Expr.Spelled] at h
    obtain ⟨l,rfl,hl,-⟩ := h
    exact hP.atom l (Or.inl (by simp [hl]))
  | .string _,_,h => by
    simp only [Expr.Spelled] at h
    obtain ⟨l,rfl,hl,-⟩ := h
    exact hP.atom l (Or.inl (by simp [hl]))
  | .bool _,_,h => by
    simp only [Expr.Spelled] at h
    obtain ⟨l,rfl,hl⟩ := h
    exact hP.atom l (Or.inr (List.mem_map_of_mem hl))
  | .nil,_,h => by
    simp only [Expr.Spelled] at h
    obtain ⟨l,rfl,hl⟩ := h
    exact hP.atom l (Or.inr (List.mem_map_of_mem hl))
  | .cell view key,_,h => by
    simp only [Expr.Spelled] at h
    obtain ⟨r,v,o,k,c,rfl,hr,hv,ho,hk,hc⟩ := h
    exact hP.holdRow hr hv ho hc (Or.inl (of_optionSpelled hP key hk))
  | .slice view lo hi,_,h => by
    simp only [Expr.Spelled] at h
    obtain ⟨r,v,o,k,m,j,c,rfl,hr,hv,ho,hk,hm,hj,hc⟩ := h
    have hu : Held P (k ++ m::j) :=
      Or.inr ⟨k,m,j,rfl,hm,of_optionSpelled hP lo hk,of_optionSpelled hP hi hj⟩
    simpa using hP.holdRow hr hv ho hc hu
  | .call f args,_,h => by
    simp only [Expr.Spelled] at h
    obtain ⟨l,o,k,c,rfl,hl,-,ho,hk,hc⟩ := h
    refine hP.hold [l] o k c ?_ (Or.inl (of_itemsSpelled hP args hk))
    rw [ho,hc]
    exact .call hl
  | .var _ _,_,h => by
    simp only [Expr.Spelled] at h
    obtain ⟨l,rfl,hl,-⟩ := h
    exact hP.atom l (Or.inl (by simp [hl]))
  | .paren e,_,h => by
    simp only [Expr.Spelled] at h
    obtain ⟨o,u,c,rfl,ho,hu,hc⟩ := h
    refine hP.hold [] o u c ?_ (Or.inl (Or.inr (of_spelled hP e hu)))
    rw [ho,hc]
    exact .paren

lemma of_optionSpelled (hP : Composed P) : ∀ (o : Option Expr) {ls : List Lexeme},
    OptionSpelled o ls → Perhaps P ls
  | none,_,h => Or.inl h
  | some e,_,h => Or.inr (of_spelled hP e h)

lemma of_itemsSpelled (hP : Composed P) : ∀ (es : List Expr) {ls : List Lexeme},
    ItemsSpelled es ls → Perhaps P ls
  | [],_,h => Or.inl h
  | e::es,_,h => by
    simp only [ItemsSpelled] at h
    obtain ⟨u,rest,rfl,he,hes⟩ := h
    exact Or.inr (append_moreSpelled hP es (of_spelled hP e he) hes)

lemma append_moreSpelled (hP : Composed P) : ∀ (es : List Expr) {u ls : List Lexeme}, P u →
    MoreSpelled es ls → P (u ++ ls)
  | [],u,_,hu,h => by
    simp only [MoreSpelled] at h
    subst h
    simpa using hu
  | e::es,u,_,hu,h => by
    simp only [MoreSpelled] at h
    obtain ⟨c,v,rest,rfl,hc,he,hes⟩ := h
    have hj : P (u ++ c::v) := by
      refine hP.join u c v ?_ hu (of_spelled hP e he)
      rw [hc]
      decide
    simpa using append_moreSpelled hP es hj hes

end

end Composed

/-- A property of no lexemes, and of lexemes put behind others. -/
structure Joins (P : List Lexeme → Prop) : Prop where
  nil : P []
  append : ∀ {u v}, P u → P v → P (u ++ v)

/-- What is true of all pieces of an expression, one by one, is true of the expression. -/
lemma Joins.composed {P : List Lexeme → Prop} (hP : Joins P)
    (hatom : ∀ l, IsAtom l → l.shape.Fits → P [l])
    (hword : ∀ l : Lexeme, l.text ∈ joints ++ leaders ++ [Text.ofString ":"] → P [l])
    (hhold : ∀ h o u c, Holder h o.text c.text → (∀ l ∈ h, l.shape.Fits) → P u →
      P (h ++ o::(u ++ [c]))) :
    Composed fun ls => (∀ l ∈ ls, l.shape.Fits) → P ls where
  atom l hl hf := hatom l hl (hf l (by simp))
  join u w v hw hu hv hf := by
    have hbefore := hu fun l hl => hf l (by simp [hl])
    have hbehind := hv fun l hl => hf l (by simp [hl])
    exact hP.append hbefore (hP.append (hword w (by simp [hw])) hbehind)
  lead w u hw hu hf :=
    hP.append (hword w (by simp [hw])) (hu fun l hl => hf l (by simp [hl]))
  hold h o u c hh hu hf := by
    refine hhold h o u c hh (fun l hl => hf l (by simp [hl])) ?_
    have hfu : ∀ l ∈ u, l.shape.Fits := fun l hl => hf l (by simp [hl])
    have hperhaps : ∀ v : List Lexeme, (∀ l ∈ v, l.shape.Fits) →
        Perhaps (fun ls => (∀ l ∈ ls, l.shape.Fits) → P ls) v → P v := by
      rintro v hv (rfl | h)
      · exact hP.nil
      · exact h hv
    rcases hu with hu | ⟨a,m,b,rfl,hm,ha,hb⟩
    · exact hperhaps u hfu hu
    · have hbefore := hperhaps a (fun l hl => hfu l (by simp [hl])) ha
      have hbehind := hperhaps b (fun l hl => hfu l (by simp [hl])) hb
      exact hP.append hbefore (hP.append (hword m (by simp [hm])) hbehind)

def valueKinds : List LexemeKind := [.float,.int,.string,.name]

def openMarks : List Text := [Text.ofString "(",Text.ofString "[",Text.ofString ":"]

def closeMarks : List Text := [Text.ofString ")",Text.ofString "]",Text.ofString ":"]

def Shape.Opens (s : Shape) : Prop :=
  s.kind ∈ valueKinds ∨
    s.text ∈ Parser.constants.map (·.1) ++ leaders ++ [Text.ofString "row",Text.ofString "("]

def Shape.Closes (s : Shape) : Prop :=
  s.kind ∈ valueKinds ∨
    s.text ∈ Parser.constants.map (·.1) ++ [Text.ofString ")",Text.ofString "]"]

/-- Lexemes that may follow each other in an expression. -/
def Adjacent (l m : Shape) : Prop :=
  (l.text ∈ joints ++ leaders ++ openMarks ∧ m.Opens) ∨
    (l.Closes ∧ m.text ∈ joints ++ closeMarks) ∨
    (l.text ∈ openMarks ∧ m.text ∈ closeMarks) ∨
    (l.text = Text.ofString "." ∧ m.kind = .name) ∨
    ((l.kind = .name ∨ l.text = Text.ofString "row") ∧
      m.text ∈ [Text.ofString ".",Text.ofString "[",Text.ofString "("])

/-- Lexemes that start and end as an expression does, with neighbours that may follow each other. -/
structure Chained (ls : List Lexeme) : Prop where
  opens : ∃ l ∈ ls.head?, l.shape.Opens
  closes : ∃ l ∈ ls.getLast?, l.shape.Closes
  chain : ls.IsChain fun l m => Adjacent l.shape m.shape

lemma Chained.closes_shapes {ls : List Lexeme} (h : Chained ls) :
    ∀ l ∈ (ls.map Lexeme.shape).getLast?, l.Closes := by
  obtain ⟨z,hz,hcloses⟩ := h.closes
  rw [List.getLast?_map,Option.mem_def.mp hz]
  rintro l ⟨⟩
  exact hcloses

lemma Chained.cons {l : Lexeme} {ls : List Lexeme} (h : Chained ls) (ho : l.shape.Opens)
    (ha : ∀ m : Shape, m.Opens → Adjacent l.shape m) : Chained (l::ls) := by
  obtain ⟨f,hf,hfo⟩ := h.opens
  obtain ⟨g,hg,hgc⟩ := h.closes
  refine ⟨⟨l,rfl,ho⟩,⟨g,?_,hgc⟩,?_⟩
  · simp [List.getLast?_cons,Option.mem_def.mp hg]
  · refine List.isChain_cons.mpr ⟨?_,h.chain⟩
    intro y hy
    rw [Option.mem_unique hy hf]
    exact ha _ hfo

lemma isChain_between {o c : Lexeme} {u : List Lexeme} (ho : o.text ∈ openMarks)
    (hc : c.text ∈ closeMarks) (hu : Perhaps Chained u) :
    (o::(u ++ [c])).IsChain fun l m => Adjacent l.shape m.shape := by
  rcases hu with rfl | hu
  · simp only [List.nil_append,List.isChain_cons_cons,List.IsChain.singleton,and_true]
    exact Or.inr (Or.inr (Or.inl ⟨ho,hc⟩))
  · obtain ⟨f,hf,hfo⟩ := hu.opens
    obtain ⟨g,hg,hgc⟩ := hu.closes
    refine List.isChain_cons.mpr ⟨?_,List.isChain_append.mpr ⟨hu.chain,.singleton c,?_⟩⟩
    · intro y hy
      rw [List.head?_append,Option.mem_def.mp hf,Option.some_or] at hy
      rw [Option.mem_unique hy rfl]
      exact Or.inl ⟨List.mem_append_right _ ho,hfo⟩
    · intro x hx y hy
      rw [Option.mem_unique hx hg]
      simp only [List.head?_cons,Option.mem_def,Option.some.injEq] at hy
      subst hy
      exact Or.inr (Or.inl ⟨hgc,List.mem_append_right _ hc⟩)

lemma isChain_held {o c : Lexeme} {u : List Lexeme} (ho : o.text ∈ openMarks)
    (hc : c.text ∈ closeMarks) (hu : Held Chained u) :
    (o::(u ++ [c])).IsChain fun l m => Adjacent l.shape m.shape := by
  rcases hu with hu | ⟨a,m,b,rfl,hm,ha,hb⟩
  · exact isChain_between ho hc hu
  · have h1 := isChain_between ho (c := m) (by simp [hm,closeMarks]) ha
    have h2 := isChain_between (o := m) (by simp [hm,openMarks]) hc hb
    have h : (o::a ++ m::(b ++ [c])).IsChain _ := List.isChain_split.mpr ⟨h1,h2⟩
    simpa using h

theorem composed_chained : Composed Chained where
  atom l hl := by
    refine ⟨⟨l,rfl,?_⟩,⟨l,rfl,?_⟩,.singleton l⟩
    · rcases hl with hl | hl
      · exact Or.inl hl
      · exact Or.inr (by simp only [List.append_assoc,List.mem_append]; exact Or.inl hl)
    · rcases hl with hl | hl
      · exact Or.inl hl
      · exact Or.inr (List.mem_append_left _ hl)
  join u w v hw hu hv := by
    obtain ⟨f,hf,hfo⟩ := hu.opens
    obtain ⟨g,hg,hgc⟩ := hu.closes
    obtain ⟨f',hf',hfo'⟩ := hv.opens
    obtain ⟨g',hg',hgc'⟩ := hv.closes
    refine ⟨⟨f,?_,hfo⟩,⟨g',?_,hgc'⟩,List.isChain_append.mpr ⟨hu.chain,?_,?_⟩⟩
    · simp [List.head?_append,Option.mem_def.mp hf]
    · simp [List.getLast?_append,List.getLast?_cons,Option.mem_def.mp hg']
    · refine List.isChain_cons.mpr ⟨?_,hv.chain⟩
      intro y hy
      rw [Option.mem_unique hy hf']
      exact Or.inl ⟨List.mem_append_left _ (List.mem_append_left _ hw),hfo'⟩
    · intro x hx y hy
      rw [Option.mem_unique hx hg]
      simp only [List.head?_cons,Option.mem_def,Option.some.injEq] at hy
      subst hy
      exact Or.inr (Or.inl ⟨hgc,List.mem_append_left _ hw⟩)
  lead w u hw hu := by
    refine hu.cons (Or.inr ?_) fun m hm => Or.inl ⟨?_,hm⟩
    · exact List.mem_append_left _ (List.mem_append_right _ hw)
    · exact List.mem_append_left _ (List.mem_append_right _ hw)
  hold h o u c hh hu := by
    have hlast : (h ++ o::(u ++ [c])).getLast? = some c := by
      simp [List.getLast?_append,List.getLast?_cons]
    have hbrackets : o.text ∈ openMarks ∧ c.text ∈ closeMarks ∧ c.shape.Closes := by
      generalize ho : o.text = s at hh
      generalize hc : c.text = t at hh
      have hcs : c.shape.text = t := hc
      cases hh <;> exact ⟨by decide,by decide,Or.inr (by rw [hcs]; decide)⟩
    obtain ⟨ho,hc,hcc⟩ := hbrackets
    have hin := isChain_held ho hc hu
    have hstep : ∀ l : Lexeme, l.kind = .name ∨ l.text = Text.ofString "row" →
        o.text ∈ [Text.ofString ".",Text.ofString "[",Text.ofString "("] →
        (l::o::(u ++ [c])).IsChain fun l m => Adjacent l.shape m.shape := fun l hl ho =>
      List.isChain_cons_cons.mpr ⟨Or.inr (Or.inr (Or.inr (Or.inr ⟨hl,ho⟩))),hin⟩
    generalize hs : o.text = s at hh hstep
    generalize ht : c.text = t at hh
    have hos : o.shape.text = s := hs
    cases hh with
    | paren => exact ⟨⟨o,rfl,Or.inr (by rw [hos]; decide)⟩,⟨c,hlast,hcc⟩,hin⟩
    | @call l hl =>
      exact ⟨⟨l,rfl,Or.inl (by simp [valueKinds,Lexeme.shape,hl])⟩,⟨c,hlast,hcc⟩,
        hstep l (Or.inl hl) (by simp)⟩
    | @row r hr =>
      have hrs : r.shape.text = Text.ofString "row" := hr
      exact ⟨⟨r,rfl,Or.inr (by rw [hrs]; decide)⟩,⟨c,hlast,hcc⟩,hstep r (Or.inr hr) (by simp)⟩
    | @view r d l hr hd hl =>
      have hrs : r.shape.text = Text.ofString "row" := hr
      have hds : d.shape.text = Text.ofString "." := hd
      refine ⟨⟨r,rfl,Or.inr (by rw [hrs]; decide)⟩,⟨c,hlast,hcc⟩,
        List.isChain_cons_cons.mpr ⟨?_,List.isChain_cons_cons.mpr ⟨?_,hstep l (Or.inl hl) (by simp)⟩⟩⟩
      · exact Or.inr (Or.inr (Or.inr (Or.inr ⟨Or.inr hr,by simp [hds]⟩)))
      · exact Or.inr (Or.inr (Or.inr (Or.inl ⟨hd,hl⟩)))

lemma Expr.Spelled.chained {e : Expr} {ls : List Lexeme} (h : e.Spelled ls) : Chained ls :=
  composed_chained.of_spelled e h

/-- How often a word occurs. -/
def occurrences (word : Text) (ls : List Lexeme) : ℕ := ls.countP fun l => l.text = word

/-- Brackets that nest: there are as many closing ones as opening ones, and never fewer behind any
place. -/
structure Nested (o c : Text) (ls : List Lexeme) : Prop where
  total : occurrences o ls = occurrences c ls
  behind : ∀ s, s <:+ ls → occurrences o s ≤ occurrences c s

@[simp] lemma occurrences_nil (word : Text) : occurrences word [] = 0 := rfl

@[simp] lemma occurrences_cons (word : Text) (l : Lexeme) (ls : List Lexeme) :
    occurrences word (l::ls) = occurrences word ls + if l.text = word then 1 else 0 := by
  simp [occurrences,List.countP_cons]

@[simp] lemma occurrences_append (word : Text) (u v : List Lexeme) :
    occurrences word (u ++ v) = occurrences word u + occurrences word v := by
  simp [occurrences]

lemma suffix_append_cases {α : Type} {s u v : List α} (h : s <:+ u ++ v) :
    s <:+ v ∨ ∃ w, w <:+ u ∧ s = w ++ v := by
  obtain ⟨p,hp⟩ := h
  rcases List.append_eq_append_iff.mp hp with ⟨w,rfl,rfl⟩ | ⟨w,rfl,hw⟩
  · exact Or.inr ⟨w,List.suffix_append p w,rfl⟩
  · exact Or.inl ⟨w,hw.symm⟩

namespace Nested

variable {o c : Text}

lemma nil : Nested o c [] := ⟨rfl,by simp⟩

lemma append {u v : List Lexeme} (hu : Nested o c u) (hv : Nested o c v) : Nested o c (u ++ v) := by
  refine ⟨by simp [hu.total,hv.total],?_⟩
  intro s hs
  rcases suffix_append_cases hs with hs | ⟨w,hw,rfl⟩
  · exact hv.behind s hs
  · have h1 := hu.behind w hw
    have h2 := hv.behind v List.suffix_rfl
    simp only [occurrences_append]
    omega

lemma single {l : Lexeme} (ho : l.text ≠ o) (hc : l.text ≠ c) : Nested o c [l] := by
  refine ⟨by simp [ho,hc],?_⟩
  intro s hs
  rcases List.suffix_cons_iff.mp hs with rfl | hs
  · simp [ho,hc]
  · simp [List.suffix_nil.mp hs]

lemma wrap {l m : Lexeme} {u : List Lexeme} (hl : l.text = o) (hm : m.text = c) (hne : o ≠ c)
    (hu : Nested o c u) : Nested o c (l::(u ++ [m])) := by
  refine ⟨by simp [hl,hm,hne,hne.symm,hu.total],?_⟩
  intro s hs
  rcases List.suffix_cons_iff.mp hs with rfl | hs
  · simp [hl,hm,hne,hne.symm,hu.total]
  · rcases suffix_append_cases hs with hs | ⟨w,hw,rfl⟩
    · rcases List.suffix_cons_iff.mp hs with rfl | hs
      · simp [hm,hne.symm]
      · simp [List.suffix_nil.mp hs]
    · have hb := hu.behind w hw
      simp only [occurrences_append,occurrences_cons,occurrences_nil,hm]
      split <;> simp <;> omega

end Nested

/-- The kind of a lexeme is told by its text. -/
lemma Shape.kind_of_text {s : Shape} (h : s.Fits) :
    (nextLexeme? s.text.runes).map (·.1) = some s.kind := by
  have hend : ∀ r ∈ ([] : List Rune).head?, Script.Apart s.kind s.text.runes r := by simp
  have hn := nextLexeme?_append h hend
  rw [List.append_nil] at hn
  rw [hn]
  rfl

lemma Shape.kind_eq {s : Shape} {word : Text} {k : LexemeKind} (h : s.Fits) (ht : s.text = word)
    (hk : (nextLexeme? (Text.runes word)).map (·.1) = some k) : s.kind = k := by
  subst ht
  rw [s.kind_of_text h] at hk
  exact Option.some_injective _ hk

def brackets : List (Text × Text) :=
  [(Text.ofString "(",Text.ofString ")"),(Text.ofString "[",Text.ofString "]")]

lemma kind_of_bracket {s : Shape} (h : s.Fits) {p : Text × Text} (hp : p ∈ brackets)
    (ht : s.text = p.1 ∨ s.text = p.2) : s.kind = .punctuation := by
  have hb : ∀ p ∈ brackets,
      (nextLexeme? (Text.runes p.1)).map (·.1) = some LexemeKind.punctuation ∧
      (nextLexeme? (Text.runes p.2)).map (·.1) = some LexemeKind.punctuation := by decide +kernel
  rcases ht with ht | ht
  · exact Shape.kind_eq h ht (hb p hp).1
  · exact Shape.kind_eq h ht (hb p hp).2

lemma Nested.of_kind {l : Lexeme} {p : Text × Text} (h : l.shape.Fits) (hp : p ∈ brackets)
    (hk : l.kind ≠ .punctuation) : Nested p.1 p.2 [l] := by
  refine .single ?_ ?_
  · exact fun ht => hk (kind_of_bracket h hp (Or.inl ht))
  · exact fun ht => hk (kind_of_bracket h hp (Or.inr ht))

lemma Nested.of_word {l : Lexeme} {p : Text × Text} {words : List Text} (hl : l.text ∈ words)
    (hw : ∀ w ∈ words, w ≠ p.1 ∧ w ≠ p.2) : Nested p.1 p.2 [l] :=
  .single (hw _ hl).1 (hw _ hl).2

lemma Nested.of_holder {p : Text × Text} (hp : p ∈ brackets) {h u : List Lexeme} {o c : Lexeme}
    (hf : ∀ l ∈ h, l.shape.Fits) (hh : Holder h o.text c.text) (hu : Nested p.1 p.2 u) :
    Nested p.1 p.2 (h ++ o::(u ++ [c])) := by
  have hin : (o.text,c.text) ∈ brackets := by
    generalize o.text = s at hh
    generalize c.text = t at hh
    cases hh <;> decide
  have hbody : Nested p.1 p.2 (o::(u ++ [c])) := by
    have hne : ∀ p ∈ brackets, p.1 ≠ p.2 := by decide
    have hother : ∀ p ∈ brackets, ∀ q ∈ brackets, p ≠ q → q.1 ≠ p.1 ∧ q.1 ≠ p.2 ∧ q.2 ≠ p.1 ∧
        q.2 ≠ p.2 := by decide
    by_cases hpq : p = (o.text,c.text)
    · subst hpq
      exact hu.wrap rfl rfl (hne _ hp)
    · obtain ⟨h1,h2,h3,h4⟩ := hother p hp _ hin hpq
      exact (Nested.single h1 h2).append (hu.append (.single h3 h4))
  refine Nested.append ?_ hbody
  generalize o.text = s at hh
  generalize c.text = t at hh
  have hrow : ∀ p ∈ brackets, Text.ofString "row" ≠ p.1 ∧ Text.ofString "row" ≠ p.2 ∧
      Text.ofString "." ≠ p.1 ∧ Text.ofString "." ≠ p.2 := by decide
  obtain ⟨h1,h2,h3,h4⟩ := hrow p hp
  cases hh with
  | paren => exact .nil
  | call hl => exact .of_kind (hf _ (by simp)) hp (by simp [hl])
  | row hr => exact .single (by rwa [hr]) (by rwa [hr])
  | view hr hd hl =>
    exact (Nested.single (by rwa [hr]) (by rwa [hr])).append
      ((Nested.single (by rwa [hd]) (by rwa [hd])).append
        (.of_kind (hf _ (by simp)) hp (by simp [hl])))

theorem composed_nested {p : Text × Text} (hp : p ∈ brackets) :
    Composed fun ls => (∀ l ∈ ls, l.shape.Fits) → Nested p.1 p.2 ls := by
  have hwords : ∀ p ∈ brackets,
      ∀ w ∈ Parser.constants.map (·.1) ++ (joints ++ leaders ++ [Text.ofString ":"]),
      w ≠ p.1 ∧ w ≠ p.2 := by decide
  refine Joins.composed ⟨.nil,.append⟩ ?_ ?_ fun h o u c hh hf hu => .of_holder hp hf hh hu
  · rintro l (hl | hl) hf
    · refine .of_kind hf hp fun hk => ?_
      simp [hk] at hl
    · exact .of_word (List.mem_append_left _ hl) (hwords p hp)
  · exact fun l hl => .of_word (List.mem_append_right _ hl) (hwords p hp)

lemma Expr.Spelled.nested {e : Expr} {ls : List Lexeme} (h : e.Spelled ls)
    (hf : ∀ l ∈ ls, l.shape.Fits) {p : Text × Text} (hp : p ∈ brackets) : Nested p.1 p.2 ls :=
  (composed_nested hp).of_spelled e h hf

def KindsOf (words : List Text) (kinds : List LexemeKind) : Prop :=
  ∀ w ∈ words, (nextLexeme? (Text.runes w)).map (·.1) ∈ kinds.map some

lemma KindsOf.kind_mem {words : List Text} {kinds : List LexemeKind} (hw : KindsOf words kinds)
    {s : Shape} (h : s.Fits) (ht : s.text ∈ words) : s.kind ∈ kinds := by
  have hk := hw _ ht
  rw [s.kind_of_text h] at hk
  obtain ⟨k,hk,he⟩ := List.mem_map.mp hk
  rwa [← Option.some_injective _ he]

lemma kindsOf_joints : KindsOf (joints ++ leaders ++ openMarks) [.name,.operator,.punctuation] := by
  unfold KindsOf
  decide +kernel

lemma kindsOf_constants : KindsOf (Parser.constants.map (·.1)) [.name] := by
  unfold KindsOf
  decide +kernel

lemma kindsOf_marks : KindsOf (openMarks ++ closeMarks ++ [Text.ofString "."]) [.punctuation] := by
  unfold KindsOf
  decide +kernel

lemma kindsOf_row : KindsOf [Text.ofString "row"] [.name] := by
  unfold KindsOf
  decide +kernel

namespace Shape

lemma Closes.kind_mem {s : Shape} (h : s.Closes) (hf : s.Fits) :
    s.kind ∈ .punctuation::valueKinds := by
  rcases h with h | h
  · exact List.mem_cons_of_mem _ h
  · rcases List.mem_append.mp h with h | h
    · have hk := kindsOf_constants.kind_mem hf h
      rw [List.mem_singleton.mp hk]
      decide
    · have hm : s.text ∈ openMarks ++ closeMarks ++ [Text.ofString "."] := by
        revert h
        generalize s.text = t
        revert t
        decide
      rw [List.mem_singleton.mp (kindsOf_marks.kind_mem hf hm)]
      decide

/-- The second characters of operators start no expression. -/
lemma Opens.head {s : Shape} (h : s.Opens) (hf : s.Fits) :
    ∀ r ∈ s.text.runes.head?, r ∉ longOperators.map fun op => Rune.char op.2 := by
  have hnumber : ∀ r : Rune, r.isDigit = true ∨ r = .char '.' →
      r ∉ longOperators.map fun op => Rune.char op.2 := by
    rintro r hr hm
    obtain ⟨op,hop,rfl⟩ := List.mem_map.mp hm
    have hnone : ∀ op ∈ longOperators, (Rune.char op.2).isDigit = false ∧ op.2 ≠ '.' := by
      simp [longOperators,Rune.isDigit]
    simp [hnone op hop] at hr
  have hname : ∀ r : Rune, startsName r = true →
      r ∉ longOperators.map fun op => Rune.char op.2 := by
    intro r hr hm
    obtain ⟨op,hop,rfl⟩ := List.mem_map.mp hm
    have hmark : ∀ op ∈ longOperators, op.2 ∈ marksAndQuotes := by decide
    rw [not_startsName_of_mark op.2 (hmark op hop)] at hr
    simp at hr
  have hword : ∀ w ∈ Parser.constants.map (·.1) ++ leaders ++
      [Text.ofString "row",Text.ofString "("], ∀ r ∈ (Text.runes w).head?,
      r ∉ longOperators.map fun op => Rune.char op.2 := by decide +kernel
  intro r hr
  rcases h with h | h
  · unfold Shape.Fits at hf
    generalize s.kind = k at h hf
    cases k with
    | float => exact hnumber r (hf.head_number (Or.inl rfl) r hr)
    | int => exact hnumber r (hf.head_number (Or.inr rfl) r hr)
    | string =>
      intro hm
      obtain ⟨op,hop,he⟩ := List.mem_map.mp hm
      have hnone : ∀ op ∈ longOperators, op.2 ≠ '"' ∧ op.2 ≠ '\'' := by simp [longOperators]
      rcases hf.head_string r hr with rfl | rfl <;> simp [hnone op hop] at he
    | name => exact hname r (hf.head_name r hr)
    | operator => simp [valueKinds] at h
    | punctuation => simp [valueKinds] at h
  · exact hword _ h r hr

end Shape

namespace Adjacent

variable {l m : Shape} (h : Adjacent l m)
include h

/-- Numbers are operands. -/
lemma after_number (hl : l.Fits) (hk : l.kind = .float ∨ l.kind = .int) :
    m.text ∈ joints ++ closeMarks := by
  have hno : ∀ {words : List Text} {kinds : List LexemeKind}, KindsOf words kinds →
      .float ∉ kinds ∧ .int ∉ kinds → l.text ∉ words := by
    rintro words kinds hw ⟨hfloat,hint⟩ ht
    have hmem := hw.kind_mem hl ht
    rcases hk with hk | hk <;> rw [hk] at hmem
    · exact hfloat hmem
    · exact hint hmem
  rcases h with ⟨h,-⟩ | ⟨-,h⟩ | ⟨h,-⟩ | ⟨h,-⟩ | ⟨h | h,-⟩
  · exact absurd h (hno kindsOf_joints (by decide))
  · exact h
  · exact absurd (List.mem_append_right _ h) (hno kindsOf_joints (by decide))
  · exact absurd (by simp [h]) (hno kindsOf_marks (by decide))
  · rcases hk with hk | hk <;> simp [hk] at h
  · exact absurd (by simp [h]) (hno kindsOf_row (by decide))

/-- Operators stand in front of operands. -/
lemma after_operator (hl : l.Fits) (hk : l.kind = .operator) : m.Opens := by
  have hno : ∀ {words : List Text} {kinds : List LexemeKind}, KindsOf words kinds →
      .operator ∉ kinds → l.text ∉ words :=
    fun hw hkinds ht => hkinds (hk ▸ hw.kind_mem hl ht)
  rcases h with ⟨-,h⟩ | ⟨h,-⟩ | ⟨h,-⟩ | ⟨h,-⟩ | ⟨h | h,-⟩
  · exact h
  · have hmem := h.kind_mem hl
    simp [hk,valueKinds] at hmem
  · exact absurd (by simp [h]) (hno kindsOf_marks (by decide))
  · exact absurd (by simp [h]) (hno kindsOf_marks (by decide))
  · simp [hk] at h
  · exact absurd (by simp [h]) (hno kindsOf_row (by decide))

/-- The point stands in front of the name of a view. -/
lemma after_point (hk : l.kind = .punctuation) (ht : l.text = Text.ofString ".") :
    m.kind = .name := by
  have hno : Text.ofString "." ∉ joints ++ leaders ++ openMarks ∧
      Text.ofString "." ∉ Parser.constants.map (·.1) ++ [Text.ofString ")",Text.ofString "]"] ∧
      Text.ofString "." ∉ openMarks ∧ Text.ofString "." ≠ Text.ofString "row" := by decide
  obtain ⟨hjoint,hclose,hopen,hrow⟩ := hno
  rcases h with ⟨h,-⟩ | ⟨h | h,-⟩ | ⟨h,-⟩ | ⟨-,h⟩ | ⟨h | h,-⟩
  · exact absurd (ht ▸ h) hjoint
  · simp [hk,valueKinds] at h
  · exact absurd (ht ▸ h) hclose
  · exact absurd (ht ▸ h) hopen
  · exact h
  · simp [hk] at h
  · exact absurd (ht.symm.trans h) hrow

/-- Neighbours in an expression may touch. -/
theorem touching (hl : l.Fits) (hm : m.Fits) : Touching l m := by
  by_cases hname : l.kind = .name
  · exact Or.inl hname
  refine Or.inr fun r hr => ?_
  rw [Shape.Apart]
  cases hk : l.kind with
  | name => exact absurd hk hname
  | string => trivial
  | float | int =>
    have hafter : ∀ w ∈ joints ++ closeMarks, ∀ r ∈ (Text.runes w).head?,
        r.isDigit = false ∧ r ≠ .char '.' ∧ r ≠ .char 'e' ∧ r ≠ .char 'E' := by decide +kernel
    exact hafter _ (h.after_number hl (by simp [hk])) r hr
  | operator =>
    rintro op hop - rfl
    exact (h.after_operator hl hk).head hm _ hr (List.mem_map.mpr ⟨op,hop,rfl⟩)
  | punctuation =>
    intro hpoint
    have hdot : l.text = Text.ofString "." := Text.runes_injective (hpoint.trans (by decide))
    have hmf : Script.Fits m.kind m.text.runes := hm
    rw [h.after_point hk hdot] at hmf
    exact not_isDigit_of_startsName (hmf.head_name r hr)

end Adjacent

/-- Every source with a spelled expression is a layout of its lexemes. -/
theorem Expr.Spelled.laid {e : Expr} {ls : List Lexeme} {src : Text} (h : e.Spelled ls)
    (hs : lex? src = some ls) : Laid (ls.map Lexeme.shape) src := by
  refine laid_of_shapes? (by rw [Script.shapes?,hs]; rfl) ?_
  rw [List.isChain_map]
  exact h.chained.chain.imp fun l m hlm hl hm => hlm.touching hl hm

end CellScript.Script
