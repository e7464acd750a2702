import Mathlib
import CellScript.Proofs.Script.Programs
import CellScript.Proofs.Script.Store
import CellScript.Proofs.Script.Variables

/-! The source of a program with that of another one behind it. It is compiled to the statements of both,
and these do what the two programs do in turn, unless a variable carries over. -/
namespace CellScript.Script

open CellScript.Script.Parser

section

variable {K : Text → Int64 → Prop}

mutual

lemma alike_names : ∀ (a : Expr) {b : Expr}, a.Alike K b → b.names = a.names
  | .or a b,_,h | .and a b,_,h | .compare _ a b,_,h | .arith _ a b,_,h => by
    simp only [Expr.Alike] at h
    obtain ⟨a',b',rfl,ha,hb⟩ := h
    simp only [Expr.names,alike_names a ha,alike_names b hb]
  | .not a,_,h | .signed _ a,_,h | .paren a,_,h => by
    simp only [Expr.Alike] at h
    obtain ⟨a',rfl,ha⟩ := h
    simp only [Expr.names,alike_names a ha]
  | .float _,_,h | .int _,_,h | .string _,_,h | .bool _,_,h | .nil,_,h => by
    simp only [Expr.Alike] at h
    rw [h]
  | .cell _ key,_,h => by
    simp only [Expr.Alike] at h
    obtain ⟨key',rfl,hk | ⟨n,i,rfl,rfl,-⟩⟩ := h
    · simp only [Expr.names,alike_optionNames key hk]
    · simp only [Expr.names,optionNames]
  | .slice _ lo hi,_,h => by
    simp only [Expr.Alike] at h
    obtain ⟨lo',hi',rfl,hl,hh⟩ := h
    simp only [Expr.names,alike_optionNames lo hl,alike_optionNames hi hh]
  | .call _ args,_,h => by
    simp only [Expr.Alike] at h
    obtain ⟨args',rfl,ha⟩ := h
    simp only [Expr.names,alike_listNames args ha]
  | .var _ _,_,h => by
    simp only [Expr.Alike] at h
    obtain ⟨pos,rfl⟩ := h
    simp only [Expr.names]

lemma alike_optionNames : ∀ (o : Option Expr) {o' : Option Expr}, OptionAlike K o o' →
    optionNames o' = optionNames o
  | none,_,h => by
    simp only [OptionAlike] at h
    rw [h]
  | some a,_,h => by
    simp only [OptionAlike] at h
    obtain ⟨a',rfl,ha⟩ := h
    simp only [optionNames,alike_names a ha]

lemma alike_listNames : ∀ (as : List Expr) {bs : List Expr}, ListAlike K as bs →
    listNames bs = listNames as
  | [],_,h => by
    simp only [ListAlike] at h
    rw [h]
  | a::as,_,h => by
    simp only [ListAlike] at h
    obtain ⟨a',as',rfl,ha,has⟩ := h
    simp only [listNames,alike_names a ha,alike_listNames as has]

end

lemma Statement.Alike.reads {R : Text.Position → Text.Position → Prop} {st st' : Statement}
    (h : st.Alike K R st') : st'.reads = st.reads ∧ st'.assigns = st.assigns := by
  cases h with
  | eval he => exact ⟨alike_names _ he,rfl⟩
  | bind name hp he => exact ⟨alike_names _ he,rfl⟩
  | store view hk he =>
    refine ⟨?_,rfl⟩
    rcases hk with hk | ⟨n,i,rfl,rfl,-⟩
    · simp only [Statement.reads,alike_names _ he,alike_optionNames _ hk]
    · simp only [Statement.reads,alike_names _ he,optionNames,Expr.names]

lemma Program.Alike.reads {p p' : Program} (h : p.Alike K p') :
    p'.reads = p.reads ∧ p'.assigns = p.assigns := by
  obtain ⟨R,-,hsts⟩ := h
  simp only [Program.reads,Program.assigns]
  generalize p.statements = sts at hsts
  generalize p'.statements = sts' at hsts
  induction hsts with
  | nil => exact ⟨rfl,rfl⟩
  | cons hst _ ih => simp only [List.flatMap_cons,hst.reads.1,hst.reads.2,ih.1,ih.2,and_self]

variable {tail ls ls' : List Lexeme}

/-- A loop that comes to the end of its source goes on behind it as from the start of the tail. -/
lemma Parser.extend_before (ht : Separates tail) {cs cs' ds : List Clause}
    (hcs : List.Forall₂ (Clause.Alike K) cs cs') (h : Aligned K tail ls ls') {f f' : ℕ}
    (hf : ls.length ≤ f) (hf' : ls'.length ≤ f') (hx : extend moreClauses f cs ls = some (ds,[])) :
    ∃ ds', List.Forall₂ (Clause.Alike K) ds ds' ∧
      extend moreClauses f' cs' ls' = extend moreClauses tail.length ds' tail := by
  induction f using Nat.strong_induction_on generalizing f' cs cs' ls ls' with
  | _ f ih =>
    by_cases hls : ls = []
    · subst hls
      rw [extend_of_none rfl,Option.some.injEq,Prod.mk.injEq] at hx
      obtain ⟨rfl,-⟩ := hx
      obtain rfl := h.lexemes.nil_left
      exact ⟨cs',hcs,extend_fuel moreClauses_shrinks hf'⟩
    rcases (agree_moreClauses ht (fun hnil => absurd hnil hls) hcs h).cases with
      ⟨hn,-⟩ | ⟨a,r,b,r',ha,hb,hab,hrr⟩
    · rw [extend_of_none hn,Option.some.injEq,Prod.mk.injEq] at hx
      exact absurd hx.2 hls
    · have hs := moreClauses_shrinks cs ha
      have hs' := moreClauses_shrinks cs' hb
      obtain ⟨m,rfl⟩ : ∃ m, f = m+1 := ⟨f-1,by omega⟩
      obtain ⟨m',rfl⟩ : ∃ m', f' = m'+1 := ⟨f'-1,by omega⟩
      rw [extend_of_some ha] at hx
      rw [extend_of_some hb]
      exact ih m (by omega) hab hrr (by omega) (by omega) hx

/-- Statements that are found already stay in front of those that are still found. -/
lemma Parser.extend_moreClauses_append (ds cs : List Clause) (f : ℕ) (ls : List Lexeme) :
    extend moreClauses f (ds ++ cs) ls =
      (extend moreClauses f cs ls).map fun found => (ds ++ found.1,found.2) := by
  have hmore : ∀ cs ls, moreClauses (ds ++ cs) ls =
      (moreClauses cs ls).map fun found => (ds ++ found.1,found.2) := by
    intro cs ls
    simp only [moreClauses,Option.bind_eq_bind,Option.map_bind]
    congr 1
    funext found
    rw [Function.comp,Option.map_bind]
    congr 1
    funext next
    simp
  induction f generalizing cs ls with
  | zero => rfl
  | succ f ih =>
    rw [extend,extend,hmore]
    cases moreClauses cs ls with
    | none => rfl
    | some found => exact ih found.1 found.2

/-- Statements behind a semicolon are added to those in front of it. -/
theorem Parser.clauses_joined {ms : List Lexeme} {q : Lexeme} {cs es : List Clause}
    (hq : Separates (q::ms)) (h : Aligned K (q::ms) ls (ls' ++ q::ms))
    (hcs : clauses ls = some (cs,[])) (hes : clauses ms = some (es,[])) :
    ∃ cs', List.Forall₂ (Clause.Alike K) cs cs' ∧
      clauses (ls' ++ q::ms) = some (cs' ++ es,[]) := by
  simp only [clauses,Option.bind_eq_bind] at hcs hes ⊢
  rcases (agree_firstClause hq h).cases with ⟨hx,-⟩ | ⟨o,r,o',r',hx,hy,hoo,hrr⟩
  · rw [hx] at hcs
    simp at hcs
  rw [hx] at hcs
  obtain ⟨cs',hcc,hloop⟩ := extend_before hq hoo hrr le_rfl le_rfl hcs
  refine ⟨cs',hcc,?_⟩
  rw [hy]
  change extend moreClauses r'.length o'.toList r' = _
  rw [hloop]
  obtain ⟨⟨next,rest⟩,hnext,hes⟩ := Option.bind_eq_some_iff.mp hes
  change extend moreClauses rest.length next.toList rest = some (es,[]) at hes
  have hstep : moreClauses cs' (q::ms) = some (cs' ++ next.toList,rest) := by
    simp [moreClauses,expect_cons (hq q rfl).1,hnext]
  obtain ⟨used,hused,-⟩ := optional_clause_spelled hnext
  have hlen : rest.length ≤ ms.length := by
    rw [hused,List.length_append]
    omega
  rw [List.length_cons,extend_of_some hstep,extend_moreClauses_append,
    extend_fuel moreClauses_shrinks hlen,hes]
  rfl

end

def parentheses : Text × Text := (Text.ofString "(",Text.ofString ")")

/-- The parentheses of statements nest. -/
lemma ClausesSpelled.nested {cs : List Clause} {ls : List Lexeme} (h : ClausesSpelled cs ls)
    (hf : ∀ l ∈ ls, l.shape.Fits) : Nested parentheses.1 parentheses.2 ls := by
  have hp : parentheses ∈ brackets := by decide
  have hmark : ∀ {m : Lexeme}, m.text ∈ clauseMarks → Nested parentheses.1 parentheses.2 [m] :=
    fun hm => .of_word hm (by decide)
  induction h with
  | nil => exact .nil
  | @one c u hc =>
    obtain ⟨-,hc⟩ := hc
    cases hv : c.value with
    | none =>
      rw [hv] at hc
      exact hc.nested hf hp
    | some value =>
      rw [hv] at hc
      obtain ⟨u,q,v,rfl,hu,hq,hvs⟩ := hc
      have hq' : q.text ∈ clauseMarks := by
        rw [hq]
        decide
      exact (hu.nested (fun l hl => hf l (by simp [hl])) hp).append
        ((hmark hq').append (hvs.nested (fun l hl => hf l (by simp [hl])) hp))
  | @semicolon cs ds u v m _ hm _ ih ih' =>
    have hm' : m.text ∈ clauseMarks := by
      rw [hm]
      decide
    exact (ih fun l hl => hf l (by simp [hl])).append
      ((hmark hm').append (ih' fun l hl => hf l (by simp [hl])))

/-- A semicolon may stand behind every program. -/
lemma Linked.laid_semicolon {ls : List Lexeme} {ms : List Shape} {t u : Text} (h : Linked ls)
    (ht : Laid (ls.map Lexeme.shape) t) (hu : Laid ms u) :
    Laid (ls.map Lexeme.shape ++ Script.semicolon::ms) (t ++ (Text.ofString ";" ++ u)) := by
  have hmark : Laid (Script.semicolon::ms) (Text.ofString ";" ++ u) :=
    laid_punctuation (c := ';') (by decide) (by decide) (by decide) hu
  refine ht.append hmark ?_
  intro s hs r hr
  have hr' : r = .char ';' := head?_runes_of_mark (c := ';') rfl (by decide) r hr
  rw [List.getLast?_map] at hs
  obtain ⟨l,hl,rfl⟩ := Option.map_eq_some_iff.mp hs
  have hf : l.shape.Fits := ht.fits _ (List.mem_map_of_mem (List.mem_of_getLast? hl))
  have htouch : Touching l.shape Script.semicolon := by
    rcases h.ends l hl with hc | hsemi
    · exact touching_clauseMark hc (by decide) hf
    · exact touching_semicolon Script.semicolon hsemi hf
  rcases htouch with hk | hapart
  · rw [hr',Shape.Apart,hk]
    exact not_continuesName_of_mark ';' (by decide)
  · exact hapart r (by rw [hr']; decide)

/-- The statements of a program with those of another one behind them. -/
def Program.joined (p q : Program) : Program :=
  { source := p.source ++ (Text.ofString ";" ++ q.source),
    statements := p.statements ++ q.statements }

/-- Two sources with a semicolon between them are a program with the statements of both, up to their
places. -/
theorem compile_joined {a b : Text} {p q : Program} (ha : Program.compile a = .ok p)
    (hb : Program.compile b = .ok q) : ∃ c p' q', Program.compile (p.joined q).source = .ok c ∧
      c.statements = p'.statements ++ q'.statements ∧
      p.Alike (fun _ _ => False) p' ∧ q.Alike (fun _ _ => False) q' := by
  obtain ⟨hpa,ls,cs,hls,hcs,hps⟩ := Program.compile_eq_ok_iff.mp ha
  obtain ⟨hqb,ms,es,hms,hes,hqs⟩ := Program.compile_eq_ok_iff.mp hb
  have hlaid := Program.laid ha hls
  obtain ⟨ns,hns,hshapes⟩ := ((clauses_eq_some hcs).1.laid_semicolon hlaid (Program.laid hb hms)).lex?
  obtain ⟨ls',rest,rfl,hl,hrest⟩ := List.map_eq_append_iff.mp hshapes
  obtain ⟨m,ms',rfl,hm,hms'⟩ := List.map_eq_cons_iff.mp hrest
  have hsep : Separates (m::ms') := by
    intro t ht
    obtain rfl := Option.some.inj ht
    exact ⟨congrArg Shape.text hm,congrArg Shape.kind hm⟩
  -- the first source is read as before, since the tail does not close its parentheses
  have hfits : ∀ l ∈ ls, l.shape.Fits := fun l hl => hlaid.fits _ (List.mem_map_of_mem hl)
  have haligned : Aligned (fun _ _ => False) (m::ms') ls (ls' ++ m::ms') :=
    ⟨.of_shapes hl.symm _,hsep.stops,fun _ => hfits,
      fun _ => ((clauses_spelled hcs).nested hfits).behind⟩
  have hsecond := agree_clauses (K := fun _ _ => False) (Matches.of_shapes hms'.symm []).aligned
  rw [List.append_nil,hes] at hsecond
  obtain ⟨es',hes',hee⟩ := hsecond.eq_some
  obtain ⟨cs',hcc,hall⟩ := clauses_joined hsep haligned hcs hes'
  have hnodup := (clauses_eq_some hall).2.nodup (nodup_places hns)
  rw [List.map_append] at hnodup
  obtain ⟨ps,hps',hp⟩ := Program.alike_of_clauses hcc
    ((clauses_eq_some hcs).2.nodup (nodup_places hls)) hnodup.of_append_left hps a
  obtain ⟨qs,hqs',hq⟩ := Program.alike_of_clauses hee
    ((clauses_eq_some hes).2.nodup (nodup_places hms)) hnodup.of_append_right hqs b
  refine ⟨⟨(p.joined q).source,ps ++ qs⟩,⟨a,ps⟩,⟨b,qs⟩,?_,rfl,hp,hq⟩
  refine Program.compile_eq_ok_iff.mpr ⟨rfl,_,cs' ++ es',?_,hall,?_⟩
  · rw [Program.joined,hpa,hqb]
    exact hns
  · exact mapM_eq_ok_iff.mpr (List.rel_append (mapM_eq_ok_iff.mp hps') (mapM_eq_ok_iff.mp hqs'))

lemma runThen_alike {K : Text → Int64 → Prop} {p q p' q' : Program} (hp : p.Alike K p')
    (hq : q.Alike K q') {l : Layout} {row : Row} (hs : row.Swaps K l) :
    (p'.runThen q' l row).1 = (p.runThen q l row).1 ∧
      Matched (Error.Alike K) Eq (p.runThen q l row).2 (p'.runThen q' l row).2 := by
  obtain ⟨hrow,hswaps,hresult⟩ := hp.run hs
  rw [Program.runThen,Program.runThen]
  generalize p.run l row = x at hrow hswaps hresult
  generalize p'.run l row = y at hrow hresult
  obtain ⟨r,x⟩ := x
  obtain ⟨r',y⟩ := y
  obtain rfl : r' = r := hrow
  cases hresult with
  | error he => exact ⟨rfl,.error he⟩
  | ok _ =>
    obtain ⟨hrow,-,hresult⟩ := hq.run hswaps
    exact ⟨hrow,hresult⟩

/-- Variables are all that carries over from statement to statement. When the second program reads no
variable that the first one assigns, its statements do behind those of the first one what they do as a
program of their own. In one source the places of statements are others, so there the same holds of the
row and of the sort of the failure. -/
theorem run_joined {a b : Text} {p q : Program} (ha : Program.compile a = .ok p)
    (hb : Program.compile b = .ok q) (h : ∀ n ∈ p.assigns, n ∉ q.reads) (l : Layout) (row : Row) :
    (p.joined q).run l row = p.runThen q l row ∧
    ∃ c, Program.compile (a ++ (Text.ofString ";" ++ b)) = .ok c ∧
      (c.run l row).1 = (p.runThen q l row).1 ∧
      (c.run l row).2.mapError Error.cause = (p.runThen q l row).2.mapError Error.cause := by
  refine ⟨run_append h _ l row,?_⟩
  obtain ⟨c,p',q',hc,hsts,hp,hq⟩ := compile_joined ha hb
  rw [Program.joined,(Program.compile_eq_ok_iff.mp ha).1,(Program.compile_eq_ok_iff.mp hb).1] at hc
  have h' : ∀ n ∈ p'.assigns, n ∉ q'.reads := by
    rw [hp.reads.2,hq.reads.1]
    exact h
  have hrun : c.run l row = p'.runThen q' l row := by
    rw [← run_append h' c.source,← hsts]
  have hswaps : row.Swaps (fun _ _ => False) l := by simp [Row.Swaps]
  obtain ⟨hrow,hresult⟩ := runThen_alike hp hq hswaps
  refine ⟨c,hc,?_,?_⟩
  · rw [hrun,hrow]
  · rw [hrun]
    generalize (p.runThen q l row).2 = x at hresult
    generalize (p'.runThen q' l row).2 = y at hresult
    cases hresult with
    | ok hu => rw [hu]
    | error he => simp only [Except.mapError,he.cause]

/-- Two programs with a variable each, on a row that both of them change. -/
theorem run_joined_copied :
    let first := Text.ofString "x = row[0]; row[1] = x"
    let second := Text.ofString "y = row[1]; row[2] = y + '!'; x = row.int[0]"
    let l : Layout := { extra := [], delimiter := Layout.defaultDelimiter }
    let row := Row.ofCells [Text.ofString "ann",Text.ofString "7"]
    ∃ p q, Program.compile first = .ok p ∧ Program.compile second = .ok q ∧
      p.assigns = [Text.ofString "x"] ∧ q.reads = [Text.ofString "y"] ∧
      (p.joined q).run l row = p.runThen q l row ∧
      (p.runThen q l row).1.cells = ["ann","ann","ann!"].map Text.ofString ∧
      (p.runThen q l row).2.mapError Error.cause = .error .cast ∧
      ∃ c, Program.compile (first ++ (Text.ofString ";" ++ second)) = .ok c ∧
        (c.run l row).1 = (p.runThen q l row).1 ∧
        (c.run l row).2.mapError Error.cause = .error .cast := by
  intro first second l row
  have hx : (Program.compile first).map Program.assigns = .ok [Text.ofString "x"] := by
    decide +kernel
  have hy : (Program.compile second).map Program.reads = .ok [Text.ofString "y"] := by
    decide +kernel
  have hrun : (do
      let p ← Program.compile first
      let q ← Program.compile second
      let r := p.runThen q l row
      return (r.1.cells,r.2.mapError Error.cause)) =
      .ok (["ann","ann","ann!"].map Text.ofString,.error .cast) := by decide +kernel
  cases hp : Program.compile first with
  | error e => simp [hp,Except.map] at hx
  | ok p =>
    cases hq : Program.compile second with
    | error e => simp [hq,Except.map] at hy
    | ok q =>
      rw [hp] at hx
      rw [hq] at hy
      rw [hp,hq] at hrun
      obtain hx := Except.ok.inj hx
      obtain hy := Except.ok.inj hy
      obtain ⟨hcells,hcause⟩ := Prod.mk.inj (Except.ok.inj hrun)
      have hfree : ∀ n ∈ p.assigns, n ∉ q.reads := by
        rw [hx,hy]
        decide
      obtain ⟨hjoined,c,hc,hrow,hresult⟩ := run_joined hp hq hfree l row
      rw [hcause] at hresult
      exact ⟨p,q,rfl,rfl,hx,hy,hjoined,hcells,hcause,c,hc,hrow,hresult⟩

end CellScript.Script
