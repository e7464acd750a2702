import Mathlib
import CellScript.Proofs.Script.Aligned
import CellScript.Proofs.Shorthand.InPlace

/-! Filters. A filter is expanded token by token, and one without accessors keeps its meaning exactly
when none of its words run together. -/
namespace CellScript.Shorthand

open Script (Formula Lexeme lex? Shape Laid Adjacent)

def Token.reading (quoting : Bool) (t : Token) : Except Error Text :=
  match t.kind with
  | .accessor | .ambiguous => do
    let f ← t.field quoting
    return f.read
  | .append => .error (t.refuse .appendInFilter)
  | _ => .ok t.lexeme

lemma Token.reading_of_not_isAccessor (quoting : Bool) {t : Token}
    (h : t.kind.isAccessor = false) : t.reading quoting = .ok t.lexeme := by
  obtain ⟨k,w,pos⟩ := t
  cases k with
  | accessor | ambiguous | append => simp [Kind.isAccessor] at h
  | assignment | separator | passthrough => rfl

lemma visitFilter_eq (quoting : Bool) {d : Draft} (hd : d.pending = none) (t : Token) :
    d.visitFilter quoting t = do return d.write (← t.reading quoting) := by
  have hpass : ∀ w, d.pass w = d.write w := by
    intro w
    rw [Draft.pass,Draft.flush,hd]
  obtain ⟨k,w,pos⟩ := t
  cases k with
  | accessor | ambiguous =>
    simp only [Draft.visitFilter,Token.reading,bind_assoc,pure_bind]
  | append => rfl
  | assignment | separator | passthrough =>
    simp only [Draft.visitFilter,Token.reading,hpass]
    rfl

lemma foldlM_visitFilter (quoting : Bool) (ts : List Token) {d : Draft} (hd : d.pending = none) :
    ts.foldlM (Draft.visitFilter quoting) d =
      do return { d with fragments := d.fragments ++ (← ts.mapM (Token.reading quoting)) } := by
  induction ts generalizing d with
  | nil => simp
  | cons t ts ih =>
    rw [List.foldlM_cons,visitFilter_eq quoting hd,List.mapM_cons]
    simp only [bind_assoc,pure_bind]
    refine bind_congr fun w => ?_
    rw [ih (by exact hd)]
    simp [Draft.write]

/-- The code of a filter is its tokens, each as what it becomes. -/
theorem expand_filter (quoting : Bool) (src : Text) : expand .filter quoting src =
    do return ⟨glueAll (← (scan src).mapM (Token.reading quoting)),[]⟩ := by
  rw [expand]
  change ((scan src).foldlM (Draft.visitFilter quoting) {} >>= fun d => return d.finish) = _
  rw [foldlM_visitFilter quoting _ rfl]
  simp only [bind_assoc,pure_bind]
  rfl

lemma mapM_reading {quoting : Bool} {ts : List Token} (h : ∀ t ∈ ts, t.kind.isAccessor = false) :
    ts.mapM (Token.reading quoting) = .ok (ts.map Token.lexeme) := by
  induction ts with
  | nil => rfl
  | cons t ts ih =>
    rw [List.mapM_cons,Token.reading_of_not_isAccessor quoting (h t (by simp)),
      ih fun x hx => h x (by simp [hx])]
    rfl

lemma stands_lexeme {keep : Prop} {t : Token} (h : t.kind.isAccessor = false) :
    Stands keep Token.lexeme t where
  same _ := rfl
  keep ht := by simp [h] at ht
  closed ht := by simp [h] at ht
  first ht := by simp [h] at ht
  last ht := by simp [h] at ht

/-- The code of a source without accessors is the source with other blanks. -/
lemma respaced_glueAll {src : Text} (hn : ∀ t ∈ scan src, t.kind.isAccessor = false) :
    Respaced False none false .code src (glueAll ((scan src).map Token.lexeme)) := by
  have hstart : Guarded none false src := by simp [Guarded]
  have hstand : ∀ t ∈ scan src, Stands False Token.lexeme t := fun t ht => stands_lexeme (hn t ht)
  have hr := (cut_scan src).respaced hstand hstart
  rwa [(cut_scan src).inPlaceFrom_lexeme,← glueAll_eq] at hr

lemma laid_glueAll {src : Text} {ls : List Shape} (hn : ∀ t ∈ scan src, t.kind.isAccessor = false)
    (hl : Laid ls src) (hc : ls.IsChain Adjacent) :
    Laid (fuse ls) (glueAll ((scan src).map Token.lexeme)) :=
  (respaced_glueAll hn).laid hl hc fun hk => absurd hk id

/-- A filter without accessors keeps its tree exactly when no two names of it run together. -/
theorem compile_filter_iff (quoting : Bool) {src : Text} {f : Formula} {ls : List Lexeme}
    (hn : ∀ t ∈ scan src, t.kind.isAccessor = false) (hf : Formula.compile src = .ok f)
    (hs : lex? src = some ls) :
    ∃ x, expand .filter quoting src = .ok x ∧
      ((∃ g, Formula.compile x.code = .ok g ∧ f.expr.SameTree g.expr) ↔
        (ls.map Lexeme.shape).IsChain fun l m => ¬ Fuses l m) := by
  have hspelled := Script.spelled_of_compile hf hs
  have hlaid : Laid (ls.map Lexeme.shape) src := hspelled.laid hs
  have hchain : (ls.map Lexeme.shape).IsChain Adjacent := by
    rw [List.isChain_map]
    exact hspelled.chained.chain
  have hcode := laid_glueAll hn hlaid hchain
  refine ⟨⟨glueAll ((scan src).map Token.lexeme),[]⟩,?_,?_,?_⟩
  · rw [expand_filter,mapM_reading hn]
    rfl
  · rintro ⟨g,hg,hsame⟩
    -- equal trees are spelled with equally many lexemes, and joined names would make them fewer
    obtain ⟨ls',hs',hm⟩ := Option.map_eq_some_iff.mp hcode.shapes?
    refine isChain_of_length_fuse hlaid.fits ?_
    rw [← hm,List.length_map,List.length_map,
      Script.length_of_spelled _ (Script.spelled_of_compile hg hs'),
      Script.length_of_spelled _ hspelled,Script.alike_size _ hsame]
  · intro hfree
    rw [fuse_eq_self hfree] at hcode
    exact Script.compile_of_shapes hf hs hcode

lemma exists_ok {ε α : Type} {x : Except ε α} (h : x.toOption.isSome = true) :
    ∃ a, x = .ok a := by
  cases x with
  | error e => simp [Except.toOption] at h
  | ok a => exact ⟨a,rfl⟩

/-- Words of ASCII letters stay apart, and quotes as well. -/
theorem compile_filter_ascii_words : ∃ f x g,
    Formula.compile (Text.ofString "not a  or 'b c' == \"d\"") = .ok f ∧
      expand .filter true (Text.ofString "not a  or 'b c' == \"d\"") = .ok x ∧
      Formula.compile x.code = .ok g ∧ f.expr.SameTree g.expr := by
  obtain ⟨f,hf⟩ := exists_ok (x := Formula.compile (Text.ofString "not a  or 'b c' == \"d\""))
    (by decide +kernel)
  obtain ⟨ls,hs⟩ := Option.isSome_iff_exists.mp
    (show (lex? (Text.ofString "not a  or 'b c' == \"d\"")).isSome = true by decide +kernel)
  have hfree : (lex? (Text.ofString "not a  or 'b c' == \"d\"")).all (fun ls =>
      decide ((ls.map Lexeme.shape).IsChain fun l m => ¬ Fuses l m)) = true := by decide +kernel
  rw [hs,Option.all_some,decide_eq_true_eq] at hfree
  obtain ⟨x,hx,hiff⟩ := compile_filter_iff true (by decide +kernel) hf hs
  obtain ⟨g,hg,hsame⟩ := hiff.mpr hfree
  exact ⟨f,x,g,hf,hx,hg,hsame⟩

/-- A word in front of a letter outside ASCII is joined with it, and the code no longer compiles. -/
theorem compile_filter_joined_words :
    (∀ t ∈ scan (Text.ofString "true or é"), t.kind.isAccessor = false) ∧
      (∃ f, Formula.compile (Text.ofString "true or é") = .ok f) ∧
      ∃ x, expand .filter true (Text.ofString "true or é") = .ok x ∧
        ∀ g, Formula.compile x.code ≠ .ok g := by
  refine ⟨by decide +kernel,exists_ok (by decide +kernel),⟨Text.ofString "true oré",[]⟩,
    by decide +kernel,?_⟩
  intro g hg
  have hnone : (Formula.compile (Text.ofString "true oré")).toOption.isSome = false := by
    decide +kernel
  rw [hg] at hnone
  simp [Except.toOption] at hnone

end CellScript.Shorthand
