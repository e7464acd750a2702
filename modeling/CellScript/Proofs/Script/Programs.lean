import Mathlib
import CellScript.Proofs.Script.Clause
import CellScript.Proofs.Script.Meaning

/-! Programs as a whole: their lexemes may touch, their statements stand at different places, and
programs with lexemes that match have statements that are alike. -/
namespace CellScript

namespace Text.Position

/-- Further on in a text: on a later line, or in a later column of the line. -/
def Before (p q : Position) : Prop := p.line < q.line ∨ p.line = q.line ∧ p.column < q.column

lemma Before.trans {p q r : Position} (h : p.Before q) (h' : q.Before r) : p.Before r := by
  unfold Before at *
  omega

lemma before_after (p : Position) (r : Rune) : p.Before (p.after r) := by
  unfold Before after
  split
  · exact Or.inl (Nat.lt_succ_self _)
  · exact Or.inr ⟨rfl,Nat.lt_succ_self _⟩

lemma Before.ne {p q : Position} (h : p.Before q) : p ≠ q := by
  rintro rfl
  unfold Before at h
  omega

end Text.Position

namespace Script

open CellScript.Script.Parser

/-- Lexemes are found one after the other. -/
lemma lexFrom_before {pos : Text.Position} {skip : ℕ} {rs : List Rune} {ls : List Lexeme}
    (h : lexFrom pos skip rs = some ls) : (∀ l ∈ ls, l.pos = pos ∨ pos.Before l.pos) ∧
      ls.Pairwise fun l m => l.pos.Before m.pos := by
  induction rs generalizing pos skip ls with
  | nil =>
    simp only [lexFrom,Option.some.injEq] at h
    subst h
    simp
  | cons r rs ih =>
    have hlater : ∀ {n : ℕ} {ms : List Lexeme}, lexFrom (pos.after r) n rs = some ms →
        (∀ l ∈ ms, pos.Before l.pos) ∧ ms.Pairwise fun l m => l.pos.Before m.pos := by
      intro n ms hms
      obtain ⟨hpos,hsorted⟩ := ih hms
      refine ⟨fun l hl => ?_,hsorted⟩
      rcases hpos l hl with he | hb
      · rw [he]
        exact pos.before_after r
      · exact (pos.before_after r).trans hb
    cases skip with
    | succ skip =>
      obtain ⟨hpos,hsorted⟩ := hlater h
      exact ⟨fun l hl => Or.inr (hpos l hl),hsorted⟩
    | zero =>
      rw [lexFrom] at h
      split at h
      · obtain ⟨hpos,hsorted⟩ := hlater h
        exact ⟨fun l hl => Or.inr (hpos l hl),hsorted⟩
      · split at h
        · simp at h
        · obtain ⟨ms,hms,rfl⟩ := Option.map_eq_some_iff.mp h
          obtain ⟨hpos,hsorted⟩ := hlater hms
          refine ⟨fun l hl => ?_,List.pairwise_cons.mpr ⟨fun l hl => hpos l hl,hsorted⟩⟩
          rcases List.mem_cons.mp hl with rfl | hl
          · exact Or.inl rfl
          · exact Or.inr (hpos l hl)

lemma nodup_places {src : Text} {ls : List Lexeme} (h : lex? src = some ls) :
    (ls.map Lexeme.pos).Nodup := by
  refine List.pairwise_map.mpr ((lexFrom_before h).2.imp ?_)
  intro l m hlm
  exact hlm.ne

/-- Places that stand at the same index of two lists. -/
def SameIndex (ps qs : List Text.Position) (p q : Text.Position) : Prop := (p,q) ∈ ps.zip qs

lemma oneToOne_sameIndex {ps qs : List Text.Position} (hp : ps.Nodup) (hq : qs.Nodup) :
    Value.OneToOne (SameIndex ps qs) := by
  induction ps generalizing qs with
  | nil => exact ⟨by simp [SameIndex],by simp [SameIndex]⟩
  | cons p ps ih =>
    cases qs with
    | nil => exact ⟨by simp [SameIndex],by simp [SameIndex]⟩
    | cons q qs =>
      obtain ⟨hp',hps⟩ := List.nodup_cons.mp hp
      obtain ⟨hq',hqs⟩ := List.nodup_cons.mp hq
      obtain ⟨hright,hleft⟩ := ih hps hqs
      refine ⟨?_,?_⟩
      · intro a b c hb hc
        simp only [SameIndex,List.zip_cons_cons,List.mem_cons,Prod.mk.injEq] at hb hc
        rcases hb with ⟨rfl,rfl⟩ | hb <;> rcases hc with ⟨ha,rfl⟩ | hc
        · rfl
        · exact absurd (List.of_mem_zip hc).1 hp'
        · exact absurd (ha ▸ (List.of_mem_zip hb).1) hp'
        · exact hright hb hc
      · intro a b c ha hb
        simp only [SameIndex,List.zip_cons_cons,List.mem_cons,Prod.mk.injEq] at ha hb
        rcases ha with ⟨rfl,rfl⟩ | ha <;> rcases hb with ⟨rfl,hc⟩ | hb
        · rfl
        · exact absurd (List.of_mem_zip hb).2 hq'
        · exact absurd (hc ▸ (List.of_mem_zip ha).2) hq'
        · exact hleft ha hb

/-- Lexemes that may touch, and that end as an expression or with a semicolon. -/
structure Linked (ls : List Lexeme) : Prop where
  chain : ls.IsChain fun l m => l.shape.Fits → m.shape.Fits → Touching l.shape m.shape
  ends : ∀ l ∈ ls.getLast?, l.shape.Closes ∨ l.text = Text.ofString ";"

lemma linked_nil : Linked [] := ⟨.nil,by simp⟩

lemma Chained.linked {ls : List Lexeme} (h : Chained ls) : Linked ls := by
  obtain ⟨g,hg,hc⟩ := h.closes
  refine ⟨h.chain.imp fun l m hlm hl hm => hlm.touching hl hm,fun l hl => Or.inl ?_⟩
  rwa [Option.mem_unique hl hg]

def clauseMarks : List Text := [Text.ofString "=",Text.ofString ";"]

/-- The marks of statements touch what ends an expression. -/
lemma touching_clauseMark {l m : Shape} (hl : l.Closes) (hm : m.text ∈ clauseMarks) (hf : l.Fits) :
    Touching l m := by
  have hmark : ∀ w ∈ clauseMarks, ∀ r ∈ (Text.runes w).head?,
      r.isDigit = false ∧ r ≠ .char '.' ∧ r ≠ .char 'e' ∧ r ≠ .char 'E' := by decide +kernel
  have hk := hl.kind_mem hf
  simp only [valueKinds,List.mem_cons,List.not_mem_nil,or_false] at hk
  rcases hk with hk | hk | hk | hk | hk
  · refine Or.inr fun r hr => ?_
    simp only [Shape.Apart,Script.Apart,hk]
    exact fun _ => (hmark _ hm r hr).1
  · refine Or.inr fun r hr => ?_
    simp only [Shape.Apart,Script.Apart,hk]
    exact hmark _ hm r hr
  · refine Or.inr fun r hr => ?_
    simp only [Shape.Apart,Script.Apart,hk]
    exact hmark _ hm r hr
  · refine Or.inr fun r hr => ?_
    simp [Shape.Apart,Script.Apart,hk]
  · exact Or.inl hk

lemma touching_equals {l m : Shape} (hl : l.text = Text.ofString "=") (hm : m.Opens) (hf : l.Fits)
    (hf' : m.Fits) : Touching l m := by
  have hk := Shape.kind_eq (k := .operator) hf hl (by decide +kernel)
  refine Or.inr fun r hr => ?_
  simp only [Shape.Apart,Script.Apart,hk]
  rintro op hop - rfl
  exact hm.head hf' _ hr (List.mem_map.mpr ⟨op,hop,rfl⟩)

lemma touching_semicolon {l : Shape} (m : Shape) (hl : l.text = Text.ofString ";") (hf : l.Fits) :
    Touching l m := by
  have hk := Shape.kind_eq (k := .punctuation) hf hl (by decide +kernel)
  have hne : (Text.ofString ";").runes ≠ [.char '.'] := by decide
  refine Or.inr fun r _ => ?_
  simp only [Shape.Apart,Script.Apart,hk,hl]
  exact fun h => absurd h hne

lemma Linked.equals {u v : List Lexeme} {q : Lexeme} (hu : Chained u)
    (hq : q.text = Text.ofString "=") (hv : Chained v) : Linked (u ++ q::v) := by
  obtain ⟨g,hg,hgc⟩ := hu.closes
  obtain ⟨f,hf,hfo⟩ := hv.opens
  obtain ⟨z,hz,hzc⟩ := hv.closes
  refine ⟨List.isChain_append.mpr ⟨hu.linked.chain,?_,?_⟩,?_⟩
  · refine List.isChain_cons.mpr ⟨fun y hy h h' => ?_,hv.linked.chain⟩
    rw [Option.mem_unique hy hf] at h' ⊢
    exact touching_equals hq hfo h h'
  · intro x hx y hy h _
    rw [Option.mem_unique hx hg] at h ⊢
    simp only [List.head?_cons,Option.mem_def,Option.some.injEq] at hy
    subst hy
    exact touching_clauseMark hgc (by rw [show q.shape.text = _ from hq]; decide) h
  · intro l hl
    rw [List.getLast?_append_of_ne_nil _ (by simp),List.getLast?_cons,Option.mem_def.mp hz] at hl
    simp only [Option.getD_some,Option.mem_def,Option.some.injEq] at hl
    rw [← hl]
    exact Or.inl hzc

lemma Linked.semicolon {u v : List Lexeme} {q : Lexeme} (hu : Linked u)
    (hq : q.text = Text.ofString ";") (hv : Linked v) : Linked (u ++ q::v) := by
  refine ⟨List.isChain_append.mpr ⟨hu.chain,?_,?_⟩,?_⟩
  · exact List.isChain_cons.mpr ⟨fun y _ h _ => touching_semicolon y.shape hq h,hv.chain⟩
  · intro x hx y hy h _
    simp only [List.head?_cons,Option.mem_def,Option.some.injEq] at hy
    subst hy
    rcases hu.ends x hx with hc | hs
    · exact touching_clauseMark hc (by rw [show q.shape.text = _ from hq]; decide) h
    · exact touching_semicolon q.shape hs h
  · intro l hl
    rw [List.getLast?_append_of_ne_nil _ (by simp),List.getLast?_cons] at hl
    cases hz : v.getLast? with
    | none =>
      rw [hz] at hl
      simp only [Option.getD_none,Option.mem_def,Option.some.injEq] at hl
      rw [← hl]
      exact Or.inr hq
    | some z =>
      rw [hz] at hl
      simp only [Option.getD_some,Option.mem_def,Option.some.injEq] at hl
      rw [← hl]
      exact hv.ends z hz

lemma Expr.Spelled.ne_nil {e : Expr} {ls : List Lexeme} (h : e.Spelled ls) : ls ≠ [] := by
  rintro rfl
  simpa using h.chained.opens

def equalsSign : Text := Text.ofString "="

/-- A statement is spelled by its target, and an equals sign and its value behind it if it has one. It
stands at the place of its first lexeme. -/
def Clause.Spelled (c : Clause) (ls : List Lexeme) : Prop :=
  ls.head?.map Lexeme.pos = some c.pos ∧ match c.value with
    | none => c.target.Spelled ls
    | some value => ∃ u q v, ls = u ++ q::v ∧ c.target.Spelled u ∧ q.text = equalsSign ∧
        value.Spelled v

/-- Statements with semicolons between them. Any of them may be missing. -/
inductive ClausesSpelled : List Clause → List Lexeme → Prop
  | nil : ClausesSpelled [] []
  | one {c : Clause} {u : List Lexeme} : c.Spelled u → ClausesSpelled [c] u
  | semicolon {cs ds : List Clause} {u v : List Lexeme} {m : Lexeme} : ClausesSpelled cs u →
      m.text = Text.ofString ";" → ClausesSpelled ds v → ClausesSpelled (cs ++ ds) (u ++ m::v)

lemma clause_spelled {ls rest : List Lexeme} {c : Clause} (h : clause ls = some (c,rest)) :
    ∃ used, ls = used ++ rest ∧ c.Spelled used := by
  cases ls with
  | nil => simp [clause] at h
  | cons l ls =>
    simp only [clause,Option.bind_eq_bind,Option.bind_eq_some_iff] at h
    obtain ⟨⟨target,mid⟩,ht,⟨value,rest'⟩,hv,h⟩ := h
    simp only [Option.pure_def,Option.some.injEq,Prod.mk.injEq] at h
    obtain ⟨rfl,rfl⟩ := h
    obtain ⟨u,hu,hspelled⟩ := Sound.expression ht
    obtain ⟨x,u,rfl⟩ := List.exists_cons_of_ne_nil hspelled.ne_nil
    rw [List.cons_append,List.cons.injEq] at hu
    obtain ⟨rfl,rfl⟩ := hu
    rcases optional_eq_some hv with ⟨e,rfl,he⟩ | ⟨rfl,rfl,-⟩
    · simp only [Option.bind_eq_some_iff] at he
      obtain ⟨⟨_,r⟩,hq,he⟩ := he
      obtain ⟨q,rfl,hqt⟩ := expect_eq_some hq
      obtain ⟨v,rfl,hvs⟩ := Sound.expression he
      exact ⟨l::u ++ q::v,by simp,rfl,l::u,q,v,rfl,hspelled,hqt,hvs⟩
    · exact ⟨l::u,rfl,rfl,hspelled⟩

lemma optional_clause_spelled {ls rest : List Lexeme} {o : Option Clause}
    (h : optional clause ls = some (o,rest)) :
    ∃ used, ls = used ++ rest ∧ ClausesSpelled o.toList used := by
  rcases optional_eq_some h with ⟨c,rfl,hc⟩ | ⟨rfl,rfl,-⟩
  · obtain ⟨used,rfl,hu⟩ := clause_spelled hc
    exact ⟨used,rfl,.one hu⟩
  · exact ⟨[],rfl,.nil⟩

/-- What is taken for statements spells them. -/
theorem clauses_spelled {ls : List Lexeme} {cs : List Clause} (h : clauses ls = some (cs,[])) :
    ClausesSpelled cs ls := by
  simp only [clauses,Option.bind_eq_bind,Option.bind_eq_some_iff] at h
  obtain ⟨⟨first,rest⟩,hf,h⟩ := h
  obtain ⟨used,hused,hall⟩ : ∃ used, ls = used ++ [] ∧ ClausesSpelled cs used := by
    refine extend_eq_some (p := moreClauses)
      (P := fun cs rest => ∃ used, ls = used ++ rest ∧ ClausesSpelled cs used) ?_
      (optional_clause_spelled hf) h
    rintro cs _ ds rest ⟨used,rfl,hu⟩ hm
    simp only [moreClauses,Option.bind_eq_bind,Option.bind_eq_some_iff] at hm
    obtain ⟨⟨_,mid⟩,hq,⟨next,r⟩,hn,hm⟩ := hm
    simp only [Option.pure_def,Option.some.injEq,Prod.mk.injEq] at hm
    obtain ⟨rfl,rfl⟩ := hm
    obtain ⟨q,rfl,hqt⟩ := expect_eq_some hq
    obtain ⟨v,rfl,hv⟩ := optional_clause_spelled hn
    exact ⟨used ++ q::v,by simp,.semicolon hu hqt hv⟩
  rwa [hused,List.append_nil]

lemma Clause.Spelled.linked {c : Clause} {ls : List Lexeme} (h : c.Spelled ls) : Linked ls := by
  obtain ⟨-,h⟩ := h
  cases hv : c.value with
  | none =>
    rw [hv] at h
    exact h.chained.linked
  | some value =>
    rw [hv] at h
    obtain ⟨u,q,v,rfl,hu,hq,hvs⟩ := h
    exact Linked.equals hu.chained hq hvs.chained

/-- The lexemes of statements may touch, and the statements stand at places of them. -/
lemma ClausesSpelled.linked {cs : List Clause} {ls : List Lexeme} (h : ClausesSpelled cs ls) :
    Linked ls ∧ (cs.map Clause.pos).Sublist (ls.map Lexeme.pos) := by
  induction h with
  | nil => exact ⟨linked_nil,by simp⟩
  | @one c u hc =>
    refine ⟨hc.linked,?_⟩
    simp only [List.map_cons,List.map_nil]
    refine List.singleton_sublist.mpr (List.mem_of_head? ?_)
    rw [List.head?_map]
    exact hc.1
  | semicolon _ hm _ ih ih' =>
    refine ⟨ih.1.semicolon hm ih'.1,?_⟩
    rw [List.map_append,List.map_append]
    exact ih.2.append (ih'.2.trans (List.sublist_cons_self _ _))

/-- The lexemes of a program may touch, and its statements stand at places of them. -/
theorem clauses_eq_some {ls : List Lexeme} {cs : List Clause} (h : clauses ls = some (cs,[])) :
    Linked ls ∧ (cs.map Clause.pos).Sublist (ls.map Lexeme.pos) :=
  (clauses_spelled h).linked

lemma Program.compile_eq_ok_iff {src : Text} {p : Program} : Program.compile src = .ok p ↔
    p.source = src ∧ ∃ ls cs, lex? src = some ls ∧ clauses ls = some (cs,[]) ∧
      cs.mapM Clause.check = .ok p.statements := by
  have hwhole : (∃ ls cs, lex? src = some ls ∧ clauses ls = some (cs,[]) ∧
      cs.mapM Clause.check = .ok p.statements) ↔
      ∃ cs, whole? clauses src = some cs ∧ cs.mapM Clause.check = .ok p.statements := by
    simp only [whole?_eq_some_iff]
    exact ⟨fun ⟨ls,cs,h1,h2,h3⟩ => ⟨cs,⟨ls,h1,h2⟩,h3⟩,fun ⟨cs,⟨ls,h1,h2⟩,h3⟩ => ⟨ls,cs,h1,h2,h3⟩⟩
  rw [hwhole,Program.compile]
  cases whole? clauses src with
  | none => simp
  | some cs =>
    obtain ⟨source,statements⟩ := p
    cases hm : cs.mapM Clause.check with
    | error e => simp [hm,Bind.bind,Except.bind]
    | ok sts =>
      simp only [hm,Bind.bind,Except.bind,Pure.pure,Except.pure,Except.ok.injEq,Program.mk.injEq,
        Option.some.injEq,exists_eq_left']
      exact ⟨fun h => ⟨h.1.symm,h.2⟩,fun h => ⟨h.1.symm,h.2⟩⟩

/-- Every source of a program is a layout of its lexemes. -/
theorem Program.laid {src : Text} {p : Program} {ls : List Lexeme}
    (hp : Program.compile src = .ok p) (hs : lex? src = some ls) :
    Laid (ls.map Lexeme.shape) src := by
  obtain ⟨-,ls',cs,hs',hc,-⟩ := Program.compile_eq_ok_iff.mp hp
  obtain rfl : ls' = ls := Option.some_injective _ (hs'.symm.trans hs)
  refine laid_of_shapes? (by rw [Script.shapes?,hs]; rfl) ?_
  rw [List.isChain_map]
  exact (clauses_eq_some hc).1.chain

section

variable {K : Text → Int64 → Prop} {tail ls ls' : List Lexeme}

lemma Matches.aligned (h : Matches K [] ls ls') : Aligned K [] ls ls' :=
  ⟨h,by simp,by simp,by simp⟩

lemma Matches.nil_left (h : Matches K tail [] ls') : ls' = tail := by
  cases h with
  | stop => rfl

lemma separates_nil : Separates [] := by simp [Separates]

/-- A mark is taken alike, unless it is a bracket in front of a key or the tail starts with it. -/
lemma Parser.agree_mark {word : Text} (hw : word ≠ Text.ofString "[")
    (ht : ls = [] → ∀ t ∈ tail.head?, t.text ≠ word) (h : Aligned K tail ls ls') :
    Agree K tail (fun _ _ => True) (expect word ls) (expect word ls') := by
  rcases h.cases with ⟨rfl,rfl⟩ | ⟨l,r,l',r',rfl,rfl,hl,hr⟩ | ⟨o,n,c,r,o',i,c',r',rfl,rfl,hk,hr⟩
  · cases ls' with
    | nil => trivial
    | cons t rest =>
      simp only [expect,isWord,beq_iff_eq,if_neg (ht rfl t rfl)]
      trivial
  · have ht : l'.text = l.text := (congrArg Shape.text hl).symm
    by_cases he : l.text = word
    · rw [expect_cons he,expect_cons (ht.trans he)]
      exact ⟨trivial,hr⟩
    · simp only [expect,isWord,ht,beq_iff_eq,if_neg he]
      trivial
  · have ho : o'.text = o.text := (congrArg Shape.text hk.opening).symm
    have hne : o.text ≠ word := by
      rw [hk.bracket]
      exact Ne.symm hw
    simp only [expect,isWord,ho,beq_iff_eq,if_neg hne]
    trivial

variable (K) in
structure Clause.Alike (c c' : Clause) : Prop where
  target : c.target.Alike K c'.target
  value : Option.Rel (Expr.Alike K) c.value c'.value

/-- No statement starts where there is no expression. -/
lemma Parser.clause_eq_none (h : expression ls = none) : clause ls = none := by
  cases ls with
  | nil => rfl
  | cons l ls => simp [clause,h]

lemma Parser.expression_nil : expression [] = none := by
  rcases h : expression [] with _ | ⟨e,rest⟩
  · rfl
  · obtain ⟨u,hu,he⟩ := Sound.expression h
    exact absurd (List.append_eq_nil_iff.mp hu.symm).1 he.ne_nil

lemma Parser.agree_clause (ht : Separates tail) (h : Aligned K tail ls ls') :
    Agree K tail (Clause.Alike K) (clause ls) (clause ls') := by
  have hexpr := agree_expression h
  match ls,ls',h with
  | [],ls',_ =>
    rcases hexpr.cases with ⟨-,hy⟩ | ⟨a,r,b,r',hx,-⟩
    · rw [clause_eq_none hy]
      trivial
    · simp [expression_nil] at hx
  | l::r,[],h =>
    have hlen := h.lexemes.length_eq
    simp only [List.length_nil,List.length_cons] at hlen
    omega
  | l::r,l'::r',h =>
    simp only [clause,Option.bind_eq_bind]
    refine hexpr.bind ?_
    intro target mid target' mid' _ _ htarget hmid
    have hassign : Agree K tail (Expr.Alike K)
        ((expect "=" mid).bind fun x => expression x.2)
        ((expect "=" mid').bind fun x => expression x.2) := by
      refine (agree_mark (by decide) (fun _ t hm => ?_) hmid).bind ?_
      · rw [(ht t hm).1]
        decide
      · intro _ s _ s' _ _ _ hss
        exact agree_expression hss
    refine (Agree.optional (p := fun ls => (expect "=" ls).bind fun x => expression x.2)
      (q := fun ls => (expect "=" ls).bind fun x => expression x.2) hassign hmid).bind ?_
    intro value s value' s' _ _ hvalue hss
    exact ⟨⟨htarget,hvalue⟩,hss⟩

lemma moreClauses_shrinks (done : List Clause) : Shrinks (moreClauses done) := by
  intro ls cs rest h
  simp only [moreClauses,Option.bind_eq_bind,Option.bind_eq_some_iff] at h
  obtain ⟨⟨_,mid⟩,hq,⟨next,r⟩,hn,h⟩ := h
  simp only [Option.pure_def,Option.some.injEq,Prod.mk.injEq] at h
  obtain ⟨q,rfl,-⟩ := expect_eq_some hq
  obtain ⟨used,rfl,-⟩ := optional_clause_spelled hn
  rw [← h.2]
  simp only [List.length_cons,List.length_append]
  omega

lemma Parser.agree_moreClauses (ht : Separates tail) (hnil : ls = [] → tail = [])
    {cs cs' : List Clause} (hcs : List.Forall₂ (Clause.Alike K) cs cs')
    (h : Aligned K tail ls ls') : Agree K tail (List.Forall₂ (Clause.Alike K))
      (moreClauses cs ls) (moreClauses cs' ls') := by
  simp only [moreClauses,Option.bind_eq_bind]
  refine (agree_mark (by decide) (fun hls => ?_) h).bind ?_
  · rw [hnil hls]
    simp
  intro _ s _ s' _ _ _ hss
  refine (Agree.optional (agree_clause ht hss) hss).bind ?_
  intro next u next' u' _ _ hnext huu
  refine ⟨?_,huu⟩
  cases hnext with
  | none => simpa using hcs
  | some hc => exact List.rel_append hcs (.cons hc .nil)

lemma Parser.agree_firstClause (ht : Separates tail) (h : Aligned K tail ls ls') :
    Agree K tail (fun o o' => List.Forall₂ (Clause.Alike K) o.toList o'.toList)
      (optional clause ls) (optional clause ls') := by
  rcases (Agree.optional (agree_clause ht h) h).cases with ⟨hx,-⟩ | ⟨o,r,o',r',hx,hy,hoo,hrr⟩
  · unfold optional at hx
    split at hx <;> simp at hx
  · rw [hx,hy]
    refine ⟨?_,hrr⟩
    cases hoo with
    | none => exact .nil
    | some hc => exact .cons hc .nil

/-- Programs with lexemes that match have statements that are alike. -/
theorem Parser.agree_clauses (h : Aligned K [] ls ls') :
    Agree K [] (List.Forall₂ (Clause.Alike K)) (clauses ls) (clauses ls') := by
  simp only [clauses,Option.bind_eq_bind]
  refine (agree_firstClause separates_nil h).bind ?_
  intro first r first' r' _ _ hfirst hrr
  exact agree_extend (p := moreClauses) (q := moreClauses) moreClauses_shrinks
    moreClauses_shrinks
    (fun _ _ _ _ hab hss _ => agree_moreClauses separates_nil (fun _ => rfl) hab hss) hfirst hrr
    le_rfl le_rfl le_rfl

lemma Agree.eq_some {α : Type} {R : α → α → Prop} {a : α} {y : Option (α × List Lexeme)}
    (h : Agree K [] R (some (a,[])) y) : ∃ b, y = some (b,[]) ∧ R a b := by
  rcases h.cases with ⟨hx,-⟩ | ⟨a',r,b,r',hx,rfl,hR,hA⟩
  · simp at hx
  · simp only [Option.some.injEq,Prod.mk.injEq] at hx
    obtain ⟨rfl,rfl⟩ := hx
    exact ⟨b,by rw [hA.lexemes.nil_left],hR⟩

/-- What can be assigned to stays so. -/
lemma Clause.Alike.check {R : Text.Position → Text.Position → Prop} {c c' : Clause}
    (h : c.Alike K c') (hR : R c.pos c'.pos) {st : Statement} (hc : c.check = .ok st) :
    ∃ st', c'.check = .ok st' ∧ st.Alike K R st' := by
  obtain ⟨pos,target,value⟩ := c
  obtain ⟨pos',target',value'⟩ := c'
  obtain ⟨ht,hv⟩ := h
  dsimp only at ht hv hR
  cases hv with
  | none =>
    simp only [Clause.check,Except.ok.injEq] at hc
    subst hc
    exact ⟨_,rfl,.eval ht⟩
  | some hv =>
    cases target with
    | var name p =>
      simp only [Clause.check,Except.ok.injEq] at hc
      subst hc
      simp only [Expr.Alike] at ht
      obtain ⟨q,rfl⟩ := ht
      exact ⟨_,rfl,.bind name hR hv⟩
    | cell view key =>
      simp only [Clause.check,Except.ok.injEq] at hc
      subst hc
      simp only [Expr.Alike] at ht
      obtain ⟨key',rfl,hk⟩ := ht
      exact ⟨_,rfl,.store view hk hv⟩
    | _ => simp [Clause.check] at hc

lemma mapM_check_alike {R : Text.Position → Text.Position → Prop} {cs cs' : List Clause}
    (h : List.Forall₂ (fun c c' => c.Alike K c' ∧ R c.pos c'.pos) cs cs') {sts : List Statement}
    (hs : cs.mapM Clause.check = .ok sts) :
    ∃ sts', cs'.mapM Clause.check = .ok sts' ∧ List.Forall₂ (Statement.Alike K R) sts sts' := by
  rw [mapM_eq_ok_iff] at hs
  simp only [mapM_eq_ok_iff]
  induction h generalizing sts with
  | nil =>
    obtain rfl := List.forall₂_nil_left_iff.mp hs
    exact ⟨[],.nil,.nil⟩
  | @cons c c' cs cs' hc _ ih =>
    obtain ⟨st,more,hst,hmore,rfl⟩ := List.forall₂_cons_left_iff.mp hs
    obtain ⟨st',hst',hal⟩ := hc.1.check hc.2 hst
    obtain ⟨more',hmore',hals⟩ := ih hmore
    exact ⟨st'::more',.cons hst' hmore',.cons hal hals⟩

variable (K) in
/-- Programs with statements that are alike, at places that can be told apart. -/
def Program.Alike (p p' : Program) : Prop :=
  ∃ R, Value.OneToOne R ∧ List.Forall₂ (Statement.Alike K R) p.statements p'.statements

/-- Parsed statements that are alike, at places that can be told apart on both sides, are programs that
are alike. -/
lemma Program.alike_of_clauses {cs cs' : List Clause} (h : List.Forall₂ (Clause.Alike K) cs cs')
    (hp : (cs.map Clause.pos).Nodup) (hp' : (cs'.map Clause.pos).Nodup) {p : Program}
    (hs : cs.mapM Clause.check = .ok p.statements) (src : Text) :
    ∃ sts, cs'.mapM Clause.check = .ok sts ∧ p.Alike K ⟨src,sts⟩ := by
  have hplaced : List.Forall₂ (fun c c' => c.Alike K c' ∧
      SameIndex (cs.map Clause.pos) (cs'.map Clause.pos) c.pos c'.pos) cs cs' := by
    obtain ⟨hlen,hzip⟩ := List.forall₂_iff_zip.mp h
    refine List.forall₂_iff_zip.mpr ⟨hlen,fun {a b} hab => ⟨hzip hab,?_⟩⟩
    rw [SameIndex,List.zip_map]
    exact List.mem_map.mpr ⟨(a,b),hab,rfl⟩
  obtain ⟨sts,hsts,halike⟩ := mapM_check_alike hplaced hs
  exact ⟨sts,hsts,_,oneToOne_sameIndex hp hp',halike⟩

/-- Programs that are alike do the same to a row in which names stand for their positions, with the
same failure if any. -/
lemma Program.Alike.run {p p' : Program} (h : p.Alike K p') {l : Layout} {row : Row}
    (hs : row.Swaps K l) : (p'.run l row).1 = (p.run l row).1 ∧ (p.run l row).1.Swaps K l ∧
      Matched (Error.Alike K) Eq (p.run l row).2 (p'.run l row).2 := by
  obtain ⟨R,hR,hsts⟩ := h
  have hscope : Scope.Alike K R l ⟨l,row,[]⟩ ⟨l,row,[]⟩ := ⟨rfl,rfl,rfl,hs,.nil⟩
  obtain ⟨hreached,hresult⟩ := execAll_alike hR hsts hscope
  exact ⟨hreached.row,hreached.swaps,hresult⟩

/-- A source with lexemes that match those of a program is a program that is alike. -/
theorem Program.compile_of_matches {src src' : Text} {p : Program}
    (hp : Program.compile src = .ok p) (hs : lex? src = some ls) (hs' : lex? src' = some ls')
    (h : Matches K [] ls ls') : ∃ p', Program.compile src' = .ok p' ∧ p.Alike K p' := by
  obtain ⟨-,ls₁,cs,hs₁,hc,hsts⟩ := Program.compile_eq_ok_iff.mp hp
  obtain rfl : ls₁ = ls := Option.some_injective _ (hs₁.symm.trans hs)
  have hagree := agree_clauses h.aligned
  rw [hc] at hagree
  obtain ⟨cs',hc',hal⟩ := hagree.eq_some
  obtain ⟨sts',hsts',halike⟩ := Program.alike_of_clauses hal
    ((clauses_eq_some hc).2.nodup (nodup_places hs))
    ((clauses_eq_some hc').2.nodup (nodup_places hs')) hsts src'
  exact ⟨⟨src',sts'⟩,Program.compile_eq_ok_iff.mpr ⟨rfl,ls',cs',hs',hc',hsts'⟩,halike⟩

/-- A source with lexemes that match those of an expression is an expression that is alike. -/
theorem Formula.compile_of_matches {src src' : Text} {f : Formula}
    (hf : Formula.compile src = .ok f) (hs : lex? src = some ls) (hs' : lex? src' = some ls')
    (hb : Text.blankOnly src' = false) (h : Matches K [] ls ls') :
    ∃ f', Formula.compile src' = .ok f' ∧ f.expr.Alike K f'.expr := by
  obtain ⟨-,-,ls₁,hs₁,hp⟩ := Formula.compile_eq_ok_iff.mp hf
  obtain rfl : ls₁ = ls := Option.some_injective _ (hs₁.symm.trans hs)
  have hagree := agree_expression h.aligned
  rw [hp] at hagree
  obtain ⟨e,he,hal⟩ := hagree.eq_some
  exact ⟨⟨src',e⟩,Formula.compile_eq_ok_iff.mpr ⟨hb,rfl,ls',hs',he⟩,hal⟩

end

end Script

end CellScript
