import Mathlib
import CellScript.Proofs.Script.Clause
import CellScript.Script.Eval

/-! Statements that store in a cell: how they are laid out, and what they are read as. The new value
is an expression, or the old value combined with one in parentheses. -/
namespace CellScript.Script

open CellScript.Script.Parser

lemma laid_punctuation {w u : Text} {c : Char} {ls : List Shape} (hw : w.runes = [.char c])
    (hc : c ∈ punctuationMarks) (hd : c ≠ '.') (hu : Laid ls u) :
    Laid (⟨.punctuation,w⟩::ls) (w ++ u) := by
  refine Laid.cons_touching (l := ⟨.punctuation,w⟩) ⟨c,hc,hw⟩ ?_ hu
  intro r _ hdot
  rw [hw] at hdot
  simp [hd] at hdot

lemma laid_name {w u : Text} {ls : List Shape} (hw : IsName w) (hu : Laid ls u)
    (ha : ∀ r ∈ u.runes.head?, continuesName r = false) : Laid (⟨.name,w⟩::ls) (w ++ u) :=
  Laid.cons_touching (l := ⟨.name,w⟩) hw ha hu

lemma head?_runes_of_mark {w u : Text} {c : Char} (hw : w = [Text.ascii c]) (hc : c.toNat < 0x80) :
    ∀ r ∈ (w ++ u).runes.head?, r = .char c := by
  rw [hw,List.cons_append,Text.runes_ascii hc]
  simp

def viewShapes : Option Text → List Shape
  | none => []
  | some view => [⟨.punctuation,Text.ofString "."⟩,⟨.name,view⟩]

def cellShapes (view : Option Text) (ks : List Shape) : List Shape :=
  ⟨.name,Text.ofString "row"⟩::(viewShapes view ++ ⟨.punctuation,Text.ofString "["⟩::
    (ks ++ [⟨.punctuation,Text.ofString "]"⟩]))

def cellText (view : Option Text) (ref : Text) : Text :=
  Text.ofString "row" ++ ((viewWords view).flatten ++ (Text.ofString "[" ++
    (ref ++ Text.ofString "]")))

/-- What stands in the brackets of a cell: its lexemes, the expression they are, and the key that it
means in every scope. -/
structure KeySpelled (ref : Text) (key : Key) (e : Expr) (ks : List Shape) : Prop where
  laid : Laid ks ref
  ne_nil : ks ≠ []
  ends : ∀ l ∈ ks.getLast?, l.Apart (.char ']')
  reads : ∀ ls : List Lexeme, ls.map Lexeme.shape = ks → KeyReads e ls
  value : ∀ s, evalKey s (some e) = .ok key

lemma not_continuesName_of_bracket : continuesName (.char '[') = false :=
  not_continuesName_of_mark '[' (by decide)

lemma laid_brackets {ref : Text} {key : Key} {e : Expr} {ks : List Shape}
    (hk : KeySpelled ref key e ks) : Laid (⟨.punctuation,Text.ofString "["⟩::
      (ks ++ [⟨.punctuation,Text.ofString "]"⟩]))
    (Text.ofString "[" ++ (ref ++ Text.ofString "]")) := by
  have hclose : Laid [⟨.punctuation,Text.ofString "]"⟩] (Text.ofString "]" ++ []) :=
    laid_punctuation (c := ']') (by decide) (by decide) (by decide) (.nil (by simp [Blank]))
  refine laid_punctuation (c := '[') (by decide) (by decide) (by decide) ?_
  rw [List.append_nil] at hclose
  refine hk.laid.append hclose ?_
  intro l hl r hr
  rw [← List.append_nil (Text.ofString "]")] at hr
  rw [head?_runes_of_mark (c := ']') (by decide) (by decide) r hr]
  exact hk.ends l hl

lemma isName_row : IsName (Text.ofString "row") := by
  obtain ⟨k,hk⟩ := isLexeme_of_fixed (w := Text.ofString "row") (by decide)
  have hn : k = .name :=
    List.mem_singleton.mp (kindsOf_row.kind_mem (s := ⟨k,Text.ofString "row"⟩) hk (by simp))
  rwa [hn] at hk

lemma laid_cell {view : Option Text} (hview : ∀ w ∈ view, IsName w) {ref : Text} {key : Key}
    {e : Expr} {ks : List Shape} (hk : KeySpelled ref key e ks) :
    Laid (cellShapes view ks) (cellText view ref) := by
  have hopen := laid_brackets hk
  have hhead : ∀ r ∈ (Text.ofString "[" ++ (ref ++ Text.ofString "]")).runes.head?,
      continuesName r = false := by
    intro r hr
    rw [head?_runes_of_mark (c := '[') (by decide) (by decide) r hr]
    exact not_continuesName_of_bracket
  cases view with
  | none => exact laid_name isName_row hopen hhead
  | some v =>
    have hv : IsName v := hview v rfl
    have hvb := laid_name hv hopen hhead
    have hdot : Laid (⟨.punctuation,Text.ofString "."⟩::⟨.name,v⟩::⟨.punctuation,Text.ofString "["⟩::
        (ks ++ [⟨.punctuation,Text.ofString "]"⟩]))
        (Text.ofString "." ++ (v ++ (Text.ofString "[" ++ (ref ++ Text.ofString "]")))) := by
      refine Laid.cons_touching (l := ⟨.punctuation,Text.ofString "."⟩) ⟨'.',by decide,by decide⟩ ?_ hvb
      intro r hr _
      rw [head?_runes_append (Shape.text_ne_nil (s := ⟨.name,v⟩) hv)
        (payload?_of_runes_head hopen.head)] at hr
      exact not_isDigit_of_startsName (hv.head_name r hr)
    have hall := laid_name isName_row hdot ?_
    · simpa [cellText,viewWords,cellShapes,viewShapes] using hall
    · intro r hr
      rw [head?_runes_of_mark (w := Text.ofString ".") (c := '.') (by decide) (by decide) r hr]
      exact not_continuesName_of_mark '.' (by decide)

/-- A cell is read from its lexemes. -/
lemma primary_cellShapes {view : Option Text} (hview : ∀ w ∈ view, IsName w) {ref : Text}
    {key : Key} {e : Expr} {ks : List Shape} (hk : KeySpelled ref key e ks) {b : List Lexeme}
    (hb : b.map Lexeme.shape = cellShapes view ks) (hf : ∀ l ∈ b, l.shape.Fits) (d : ℕ)
    (rest : List Lexeme) :
    primary (expr (d+1)) (b ++ rest) = some (.cell view (some e),rest) := by
  obtain ⟨r,u,rfl,hr,hu⟩ := List.map_eq_cons_iff.mp hb
  obtain ⟨v,w,rfl,hv,hw⟩ := List.map_eq_append_iff.mp hu
  obtain ⟨o,x,rfl,ho,hx⟩ := List.map_eq_cons_iff.mp hw
  obtain ⟨k,y,rfl,hks,hy⟩ := List.map_eq_append_iff.mp hx
  obtain ⟨c,z,rfl,hc,hz⟩ := List.map_eq_cons_iff.mp hy
  obtain rfl : z = [] := List.map_eq_nil_iff.mp hz
  have hcarries : Carries v (viewWords view) := by
    refine ⟨?_,fun l hl => hf l (by simp [hl])⟩
    have ht := congrArg (List.map Shape.text) hv
    rw [List.map_map] at ht
    rw [show (fun l : Lexeme => l.text) = Shape.text ∘ Lexeme.shape from rfl,ht]
    cases view <;> rfl
  have hcell := primary_cell hview (hf r (by simp)) (congrArg Shape.text hr) hcarries
    (congrArg Shape.text ho) (hk.reads k hks) (congrArg Shape.text hc) d rest
  simpa using hcell

lemma cellShapes_head {view : Option Text} {ks : List Shape} {b : List Lexeme}
    (hb : b.map Lexeme.shape = cellShapes view ks) :
    ∃ l ls, b = l::ls ∧ l.text = Text.ofString "row" := by
  obtain ⟨l,ls,rfl,hl,-⟩ := List.map_eq_cons_iff.mp hb
  exact ⟨l,ls,rfl,congrArg Shape.text hl⟩

/-- The lexemes of a new value: those of an expression, or the old value through a view, an operator,
and the expression in parentheses. -/
def valueShapes (ks es : List Shape) : Option (Arith × Option Text) → List Shape
  | none => es
  | some (op,view) => cellShapes view ks ++ ⟨.operator,op.symbol⟩::⟨.punctuation,Text.ofString "("⟩::
      (es ++ [⟨.punctuation,Text.ofString ")"⟩])

def valueText (ref u : Text) : Option (Arith × Option Text) → Text
  | none => u
  | some (op,view) => cellText view ref ++ (Text.ofString " " ++ (op.symbol ++
      (Text.ofString " (" ++ (u ++ Text.ofString ")"))))

def valueExpr (key e : Expr) : Option (Arith × Option Text) → Expr
  | none => e
  | some (op,view) => .arith op (.cell view (some key)) (.paren e)

def storeShapes (ks es : List Shape) (old : Option (Arith × Option Text)) : List Shape :=
  cellShapes none ks ++ ⟨.operator,Text.ofString "="⟩::valueShapes ks es old

/-- A statement that stores a new value in a cell. -/
def storeText (ref u : Text) (old : Option (Arith × Option Text)) : Text :=
  cellText none ref ++ (Text.ofString " = " ++ valueText ref u old)

lemma laid_spaced {ls ms : List Shape} {t u : Text} (h : Laid ls t) (hu : Laid ms u) :
    Laid (ls ++ ms) (t ++ (Text.ofString " " ++ u)) := by
  have hblank : Blank (Text.ofString " ") := by
    unfold Blank
    decide +kernel
  refine h.append (hu.blank_append hblank) ?_
  intro l _ r hr
  exact l.apart_of_isGap (isGap_of_blank_append hblank (by decide) r hr)

lemma fits_symbol (op : Arith) : Fits .operator op.symbol.runes := by
  cases op with
  | add => exact Or.inl ⟨'+',by decide,by decide⟩
  | sub => exact Or.inl ⟨'-',by decide,by decide⟩
  | mul => exact Or.inl ⟨'*',by decide,by decide⟩
  | div => exact Or.inl ⟨'/',by decide,by decide⟩
  | floorDiv => exact Or.inr ⟨('/','/'),by decide,by decide⟩
  | mod => exact Or.inl ⟨'%',by decide,by decide⟩

lemma laid_single {l : Shape} (h : l.Fits) : Laid [l] l.text := by
  have hend : Laid [] [] := .nil (by simp [Blank])
  simpa using hend.cons_touching h (by simp)

/-- The text of an expression in front of a closing mark. -/
lemma laid_before_mark {w t u : Text} {c : Char} {ls ms : List Shape}
    (hw : w = [Text.ascii c]) (hc : c = ')' ∨ c = ';') (h : Laid ls t)
    (hl : ∀ l ∈ ls.getLast?, l.Closes) (hu : Laid ms u) :
    Laid (ls ++ ⟨.punctuation,w⟩::ms) (t ++ (w ++ u)) := by
  have hlt : c.toNat < 0x80 := by
    rcases hc with rfl | rfl <;> decide
  have hr : w.runes = [.char c] := by
    rw [hw,Text.runes_ascii hlt]
    rfl
  refine h.append (laid_punctuation hr ?_ ?_ hu) ?_
  · rcases hc with rfl | rfl <;> decide
  · rcases hc with rfl | rfl <;> decide
  · intro l hlast r hr
    rw [head?_runes_of_mark hw hlt r hr]
    have hk := (hl l hlast).kind_mem (h.fits l (List.mem_of_getLast? hlast))
    simp only [valueKinds,List.mem_cons,List.not_mem_nil,or_false] at hk
    simp only [Shape.Apart]
    rcases hk with hk | hk | hk | hk | hk <;> rw [hk]
    · intro _
      rcases hc with rfl | rfl <;> decide
    · rcases hc with rfl | rfl <;> exact ⟨by decide,by decide,by decide,by decide⟩
    · rcases hc with rfl | rfl <;> exact ⟨by decide,by decide,by decide,by decide⟩
    · trivial
    · simp only [Script.Apart]
      rcases hc with rfl | rfl
      · exact not_continuesName_of_mark ')' (by decide)
      · exact not_continuesName_of_mark ';' (by decide)

/-- No expression starts with an equals sign. -/
lemma Laid.head_ne_equals {l : Shape} {ls : List Shape} {t : Text} (h : Laid (l::ls) t)
    (hl : l.Opens) : t.head? ≠ some (Text.ascii '=') := by
  have hword : ∀ w ∈ Parser.constants.map (·.1) ++ leaders ++ [Text.ofString "row",Text.ofString "("],
      w.head? ≠ some (Text.ascii '=') := by decide
  generalize hm : l::ls = ms at h
  cases h with
  | nil => simp at hm
  | @cons gap rest m ms hg hf ha hr =>
    obtain ⟨rfl,rfl⟩ := List.cons.inj hm
    intro hhead
    cases gap with
    | cons b gap =>
      rw [List.cons_append,List.head?_cons,Option.some.injEq] at hhead
      exact absurd (hg b (by simp)) (by rw [hhead]; decide)
    | nil =>
      rw [List.nil_append,List.head?_append_of_ne_nil _ (Shape.text_ne_nil hf)] at hhead
      rcases hl with hk | hw
      · obtain ⟨u,hu⟩ := List.head?_eq_some_iff.mp hhead
        have hrune : Rune.char '=' ∈ l.text.runes.head? := by
          rw [hu,Text.runes_ascii (by decide)]
          rfl
        simp only [valueKinds,List.mem_cons,List.not_mem_nil,or_false] at hk
        unfold Shape.Fits at hf
        rcases hk with hk | hk | hk | hk <;> rw [hk] at hf
        · exact absurd (hf.head_number (Or.inl rfl) _ hrune) (by decide)
        · exact absurd (hf.head_number (Or.inr rfl) _ hrune) (by decide)
        · exact absurd (hf.head_string _ hrune) (by decide)
        · have hstart := hf.head_name _ hrune
          rw [startsName_of_lt (by decide)] at hstart
          exact absurd hstart (by decide)
      · exact hword _ hw hhead

lemma apart_bracket {l : Shape} (hk : l.kind = .int ∨ l.kind = .string) : l.Apart (.char ']') := by
  rcases hk with hk | hk
  · rw [Shape.Apart,hk]
    exact ⟨by decide,by decide,by decide,by decide⟩
  · rw [Shape.Apart,hk]
    trivial

/-- A literal is the key that it stands for. -/
lemma keySpelled_literal {l : Shape} {e : Expr} {key : Key} (hf : l.Fits)
    (hk : l.kind = .int ∨ l.kind = .string)
    (he : ∀ m : Lexeme, m.shape = l → literal? m = some e)
    (hv : ∀ s, evalKey s (some e) = .ok key) : KeySpelled l.text key e [l] := by
  refine ⟨laid_single hf,by simp,?_,?_,hv⟩
  · intro m hm
    rw [List.getLast?_singleton,Option.mem_def,Option.some.injEq] at hm
    rw [← hm]
    exact apart_bracket hk
  · intro ls hls
    obtain ⟨m,ms,rfl,hm,hms⟩ := List.map_eq_cons_iff.mp hls
    obtain rfl : ms = [] := List.map_eq_nil_iff.mp hms
    rw [← hm] at hf hk
    exact keyReads_literal (he m hm) (not_mem_leaders hf hk)

lemma literal?_of_decimal {t : Text} (ht : Text.IsDecimal t) (h : Text.decimal t < 2^63)
    {m : Lexeme} (hm : m.shape = ⟨.int,t⟩) :
    literal? m = some (.int (Int64.ofInt (Text.decimal t))) := by
  have hkind : m.kind = .int := congrArg Shape.kind hm
  have htext : m.text = t := congrArg Shape.text hm
  rw [literal?,hkind,htext]
  simp [Number.readInt_of_isDecimal ht h,Except.toOption]

lemma toInt_decimal {n : ℕ} (h : n < 2^63) : (Int64.ofInt n).toInt = n :=
  Int64.toInt_ofInt_of_le (by omega) (by omega)

/-- Digits are the position that they stand for. -/
lemma keySpelled_position {t : Text} (ht : Text.IsDecimal t) (h : Text.decimal t < 2^63) :
    KeySpelled t (.index (Text.decimal t)) (.int (Int64.ofInt (Text.decimal t))) [⟨.int,t⟩] := by
  refine keySpelled_literal (l := ⟨.int,t⟩) (fits_of_isDecimal ht) (Or.inl rfl)
    (fun m hm => literal?_of_decimal ht h hm) ?_
  intro s
  have hkey : evalKey s (some (.int (Int64.ofInt (Text.decimal t)))) =
      .ok (.index (Int64.ofInt (Text.decimal t)).toInt) := rfl
  rw [hkey,toInt_decimal h]

def minusShape : Shape := ⟨.operator,Text.ofString "-"⟩

/-- Digits behind a minus sign are a position from the end. -/
lemma keySpelled_negative {t : Text} (ht : Text.IsDecimal t) (h : Text.decimal t < 2^63) :
    KeySpelled (Text.ofString "-" ++ t) (.index (-Text.decimal t))
      (.signed .minus (.int (Int64.ofInt (Text.decimal t)))) [minusShape,⟨.int,t⟩] := by
  have hdigits : Laid [⟨.int,t⟩] t := laid_single (l := ⟨.int,t⟩) (fits_of_isDecimal ht)
  have hminus : minusShape.Fits := Or.inl ⟨'-',by decide,by decide⟩
  refine ⟨hdigits.cons_touching hminus ?_,by simp,?_,?_,?_⟩
  · intro r hr op hop hm
    have hno : ∀ op ∈ longOperators, minusShape.text.runes ≠ [.char op.1] := by decide +kernel
    exact absurd hm (hno op hop)
  · intro m hm
    simp only [List.getLast?_cons_cons,List.getLast?_singleton,Option.mem_def,
      Option.some.injEq] at hm
    rw [← hm]
    exact apart_bracket (Or.inl rfl)
  · intro ls hls
    obtain ⟨m,ms,rfl,hm,hms⟩ := List.map_eq_cons_iff.mp hls
    obtain ⟨l,ks,rfl,hl,hks⟩ := List.map_eq_cons_iff.mp hms
    obtain rfl : ks = [] := List.map_eq_nil_iff.mp hks
    have hfits : l.shape.Fits := by
      rw [hl]
      exact fits_of_isDecimal ht
    have hkind : l.kind = .int := congrArg Shape.kind hl
    exact keyReads_minus (congrArg Shape.text hm) (literal?_of_decimal ht h hl)
      (not_mem_leaders hfits (Or.inl hkind))
  · intro s
    have hkey : evalKey s (some (.signed .minus (.int (Int64.ofInt (Text.decimal t))))) =
        .ok (.index (-Int64.ofInt (Text.decimal t)).toInt) := rfl
    have hneg : (-Int64.ofInt (Text.decimal t)).toInt = -Text.decimal t := by
      rw [← Int64.ofInt_neg]
      exact Int64.toInt_ofInt_of_le (by omega) (by omega)
    rw [hkey,hneg]

/-- A name in quotes is the name. -/
lemma keySpelled_quoted {q : UInt8} (hq : Text.isQuote q = true) {n : Text} (hn : PlainName n) :
    KeySpelled (quoteWith q n) (.name n) (.string n) [⟨.string,quoteWith q n⟩] := by
  refine keySpelled_literal (l := ⟨.string,quoteWith q n⟩) (fits_quoteWith_plain hq hn.quote hn.slash)
    (Or.inr rfl) ?_ (fun s => rfl)
  intro m hm
  have hkind : m.kind = .string := congrArg Shape.kind hm
  have htext : m.text = quoteWith q n := congrArg Shape.text hm
  rw [literal?,hkind,htext]
  simp [decodeLiteral_quoteWith q hn.utf8 hn.slash]

section Stores

variable {ref : Text} {key : Key} {k : Expr} {ks : List Shape}

/-- What an assignment does with the old value: an operator, and the view that it is read through. -/
def Views (old : Option (Arith × Option Text)) : Prop := ∀ o ∈ old, ∀ w ∈ o.2, IsName w

lemma alike_value {K : Text → Int64 → Prop} (k : Expr) {e e' : Expr} (h : e.Alike K e')
    (old : Option (Arith × Option Text)) : (valueExpr k e old).Alike K (valueExpr k e' old) := by
  match old with
  | none => exact h
  | some (op,view) =>
    simp only [valueExpr,Expr.Alike]
    exact ⟨_,_,rfl,⟨some k,rfl,Or.inl (optionAlike_refl (some k))⟩,e',rfl,h⟩

lemma laid_value (hk : KeySpelled ref key k ks) {old : Option (Arith × Option Text)}
    (hold : Views old) {es : List Shape} {u : Text} (hu : Laid es u)
    (hclose : ∀ l ∈ es.getLast?, l.Closes) :
    Laid (valueShapes ks es old) (valueText ref u old) := by
  match old,hold with
  | none,_ => exact hu
  | some (op,view),hold =>
    have hend : Laid [] [] := .nil (by simp [Blank])
    have hgroup := laid_before_mark (w := Text.ofString ")") (c := ')') rfl (Or.inl rfl) hu hclose hend
    rw [List.append_nil] at hgroup
    have hopen := laid_punctuation (w := Text.ofString "(") (c := '(') (by decide) (by decide)
      (by decide) hgroup
    have hcell := laid_cell (hold (op,view) rfl) hk
    exact laid_spaced hcell (laid_spaced (laid_single (l := ⟨.operator,op.symbol⟩) (fits_symbol op))
      hopen)

/-- A store is laid out. -/
theorem laid_store (hk : KeySpelled ref key k ks) {old : Option (Arith × Option Text)}
    (hold : Views old) {es : List Shape} {u : Text} (hu : Laid es u)
    (hclose : ∀ l ∈ es.getLast?, l.Closes) :
    Laid (storeShapes ks es old) (storeText ref u old) := by
  have hequals : Shape.Fits ⟨.operator,Text.ofString "="⟩ := Or.inl ⟨'=',by decide,by decide⟩
  have hplain : ∀ w ∈ (none : Option Text), IsName w := by simp
  have hcell := laid_cell hplain hk
  exact laid_spaced hcell (laid_spaced (laid_single hequals) (laid_value hk hold hu hclose))

lemma closes_value {es : List Shape} (hclose : ∃ l ∈ es.getLast?, l.Closes)
    (ks : List Shape) (old : Option (Arith × Option Text)) :
    ∃ l ∈ (valueShapes ks es old).getLast?, l.Closes := by
  match old with
  | none => exact hclose
  | some (op,view) =>
    have hlast : valueShapes ks es (some (op,view)) = cellShapes view ks ++
        ⟨.operator,op.symbol⟩::⟨.punctuation,Text.ofString "("⟩::es ++
        [⟨.punctuation,Text.ofString ")"⟩] := by simp [valueShapes]
    refine ⟨⟨.punctuation,Text.ofString ")"⟩,?_,Or.inr ?_⟩
    · rw [hlast,List.getLast?_concat]
      rfl
    · simp

/-- A store ends as an expression does. -/
lemma closes_store {es : List Shape} (hclose : ∃ l ∈ es.getLast?, l.Closes)
    (ks : List Shape) (old : Option (Arith × Option Text)) :
    ∃ l ∈ (storeShapes ks es old).getLast?, l.Closes := by
  obtain ⟨l,hl,hc⟩ := closes_value hclose ks old
  refine ⟨l,?_,hc⟩
  rw [storeShapes,List.getLast?_append_of_ne_nil _ (by simp),List.getLast?_cons,
    Option.mem_def.mp hl]
  rfl

/-- Lexemes that are read as a tree in front of everything that ends an expression, up to the places
of its names. -/
def Yields (tree : Expr) (ls : List Lexeme) : Prop :=
  ∀ tail, Stops tail → ∀ d, (ls ++ tail).length < d →
    ∃ e, tree.SameTree e ∧ expr d (ls ++ tail) = some (e,tail)

/-- The lexemes of code that compiles are read as its tree wherever they stand. -/
lemma yields_of_compile {code : Text} {f : Formula} {ls : List Lexeme}
    (hf : Formula.compile code = .ok f) (hs : lex? code = some ls) {ms : List Lexeme}
    (hm : ms.map Lexeme.shape = ls.map Lexeme.shape) : Yields f.expr ms :=
  fun _ ht _ hd => expr_of_compile hf hs hm.symm ht hd

lemma mem_operators (op : Arith) : (op.symbol,op) ∈ sums ∨ (op.symbol,op) ∈ products := by
  cases op <;> decide

lemma primary_group {tree : Expr} {o c : Lexeme} {u rest : List Lexeme} (hu : Yields tree u)
    (hf : o.shape.Fits) (ho : o.text = Text.ofString "(")
    (hc : c.shape = ⟨.punctuation,Text.ofString ")"⟩) {d : ℕ} (hd : (u ++ c::rest).length < d) :
    ∃ e, tree.SameTree e ∧ primary (expr d) (o::(u ++ c::rest)) = some (.paren e,rest) := by
  have hkind : c.kind = .punctuation := congrArg Shape.kind hc
  have htext : c.text = Text.ofString ")" := congrArg Shape.text hc
  have hstops : Stops (c::rest) := by
    intro t ht
    rw [List.head?_cons,Option.mem_def,Option.some.injEq] at ht
    rw [← ht,hkind,htext]
    exact ⟨by decide,by decide⟩
  obtain ⟨e,he,hp⟩ := hu (c::rest) hstops d hd
  exact ⟨e,he,primary_paren hf ho hp htext⟩

/-- The lexemes of a new value are read as it. -/
lemma expression_value (hk : KeySpelled ref key k ks) {old : Option (Arith × Option Text)}
    (hold : Views old) {tree : Expr} {es : List Shape}
    (hes : ∀ ls : List Lexeme, ls.map Lexeme.shape = es → Yields tree ls) {b tail : List Lexeme}
    (hb : b.map Lexeme.shape = valueShapes ks es old) (hf : ∀ l ∈ b, l.shape.Fits)
    (ht : Separates tail) :
    ∃ e, tree.SameTree e ∧ expression (b ++ tail) = some (valueExpr k e old,tail) := by
  match old,hold with
  | none,_ => exact hes b hb tail ht.stops _ (Nat.lt_succ_self _)
  | some (op,view),hold =>
    obtain ⟨a,r,rfl,ha,hr⟩ := List.map_eq_append_iff.mp hb
    obtain ⟨w,r,rfl,hw,hr⟩ := List.map_eq_cons_iff.mp hr
    obtain ⟨o,r,rfl,ho,hr⟩ := List.map_eq_cons_iff.mp hr
    obtain ⟨u,r,rfl,hu,hr⟩ := List.map_eq_append_iff.mp hr
    obtain ⟨c,r,rfl,hc,hr⟩ := List.map_eq_cons_iff.mp hr
    obtain rfl : r = [] := List.map_eq_nil_iff.mp hr
    obtain ⟨x,xs,rfl,hx⟩ := cellShapes_head ha
    have hsplit : x::xs ++ w::o::(u ++ [c]) ++ tail = x::(xs ++ w::o::(u ++ c::tail)) := by simp
    rw [hsplit]
    have hshorter : (u ++ c::tail).length < (xs ++ w::o::(u ++ c::tail)).length+1 := by
      simp
      omega
    obtain ⟨e,he,hgroup⟩ := primary_group (hes u hu) (hf o (by simp)) (congrArg Shape.text ho) hc
      hshorter
    have hcell := primary_cellShapes (hold (op,view) rfl) hk ha (fun l hl => hf l (List.mem_append_left _ hl))
      (xs ++ w::o::(u ++ c::tail)).length (w::o::(u ++ c::tail))
    refine ⟨e,he,disjunction_of_operator ?_ hcell ?_ hgroup ?_ ht.clear⟩
    · rw [show w.text = op.symbol from congrArg Shape.text hw]
      exact mem_operators op
    · rw [hx]
      decide
    · rw [show o.text = Text.ofString "(" from congrArg Shape.text ho]
      decide

/-- The lexemes of a store are read as one statement, which stores the new value. -/
theorem reads_store (hk : KeySpelled ref key k ks) {old : Option (Arith × Option Text)}
    (hold : Views old) {tree : Expr} {es : List Shape}
    (hes : ∀ ls : List Lexeme, ls.map Lexeme.shape = es → Yields tree ls) {b : List Lexeme}
    (hb : b.map Lexeme.shape = storeShapes ks es old) (hf : ∀ l ∈ b, l.shape.Fits) :
    Reads1 b fun c => ∃ e, tree.SameTree e ∧
      c.check = .ok (.store none (some k) (valueExpr k e old)) := by
  intro tail ht
  obtain ⟨a,r,rfl,ha,hr⟩ := List.map_eq_append_iff.mp hb
  obtain ⟨q,v,rfl,hq,hv⟩ := List.map_eq_cons_iff.mp hr
  obtain ⟨x,xs,rfl,hx⟩ := cellShapes_head ha
  have hqt : q.text = Text.ofString "=" := congrArg Shape.text hq
  obtain ⟨e,he,hvalue⟩ := expression_value hk hold hes hv (fun l hl => hf l (by simp [hl])) ht
  have hplain : ∀ w ∈ (none : Option Text), IsName w := by simp
  have hcell := primary_cellShapes hplain hk ha (fun l hl => hf l (List.mem_append_left _ hl))
    (xs ++ q::(v ++ tail)).length (q::(v ++ tail))
  have htarget : expression (x::(xs ++ q::(v ++ tail))) =
      some (.cell none (some k),q::(v ++ tail)) := by
    refine disjunction_of_primary hcell ?_ ?_
    · rw [hx]
      decide
    · refine clear_cons ?_ _
      rw [hqt]
      decide
  have hclause := clause_of_expressions htarget hqt hvalue
  refine ⟨_,⟨e,he,?_⟩,by simpa using hclause⟩
  rfl

/-- A cell is a formula. -/
lemma Formula.compile_keyed (hk : KeySpelled ref key k ks) {view : Option Text}
    (hview : ∀ w ∈ view, IsName w) :
    Formula.compile (cellText view ref) = .ok ⟨cellText view ref,.cell view (some k)⟩ := by
  have hlaid := laid_cell hview hk
  obtain ⟨ls,hlex,hshapes⟩ := hlaid.lex?
  obtain ⟨l,rest,rfl,hl⟩ := cellShapes_head hshapes
  have hfits : ∀ m ∈ l::rest, m.shape.Fits :=
    fun m hm => hlaid.fits _ (hshapes ▸ List.mem_map_of_mem hm)
  have hprimary := primary_cellShapes hview hk hshapes hfits rest.length []
  rw [List.append_nil] at hprimary
  refine Formula.compile_eq_ok_iff.mpr ⟨?_,rfl,l::rest,hlex,?_⟩
  · exact hlaid.not_blankOnly
  · exact disjunction_of_primary hprimary (by rw [hl]; decide) (by simp [Clear])

end Stores

def semicolon : Shape := ⟨.punctuation,Text.ofString ";"⟩

def Checks (P : Statement → Prop) (c : Clause) : Prop := ∃ st, c.check = .ok st ∧ P st

/-- A text with the lexemes of a statement of a kind, which ends as an expression does. -/
structure Coded (t : Text) (ss : List Shape) (P : Statement → Prop) : Prop where
  laid : Laid ss t
  closes : ∃ l ∈ ss.getLast?, l.Closes
  reads : ∀ b : List Lexeme, b.map Lexeme.shape = ss → Reads1 b (Checks P)

/-- A store of what has the lexemes of an expression. -/
theorem coded_store {ref : Text} {key : Key} {k : Expr} {ks : List Shape}
    (hk : KeySpelled ref key k ks) {old : Option (Arith × Option Text)} (hold : Views old)
    {code u : Text} {f : Formula} {ls : List Lexeme} (hf : Formula.compile code = .ok f)
    (hs : lex? code = some ls) (hu : Laid (ls.map Lexeme.shape) u) :
    Coded (storeText ref u old) (storeShapes ks (ls.map Lexeme.shape) old) fun st =>
      ∃ e, f.expr.SameTree e ∧ st = .store none (some k) (valueExpr k e old) := by
  have hchained := (spelled_of_compile hf hs).chained
  obtain ⟨z,hz,hcloses⟩ := hchained.closes
  have hlast : (ls.map Lexeme.shape).getLast? = some z.shape := by
    rw [List.getLast?_map,Option.mem_def.mp hz]
    rfl
  have hstore := laid_store hk hold hu hchained.closes_shapes
  refine ⟨hstore,closes_store ⟨z.shape,hlast,hcloses⟩ ks old,?_⟩
  intro b hb tail ht
  have hfits : ∀ l ∈ b, l.shape.Fits :=
    fun l hl => hstore.fits l.shape (hb ▸ List.mem_map_of_mem hl)
  obtain ⟨c,⟨e,he,hcheck⟩,hc⟩ :=
    reads_store hk hold (fun _ => yields_of_compile hf hs) hb hfits tail ht
  exact ⟨c,⟨_,hcheck,e,he,rfl⟩,hc⟩

variable {α : Type} {text : α → Text} {shapes : α → List Shape} {P : α → Statement → Prop}

/-- Statements with semicolons between them are laid out. -/
lemma laid_sequence (x : α) {xs : List α} (hx : Coded (text x) (shapes x) (P x))
    (hxs : ∀ y ∈ xs, Coded (text y) (shapes y) (P y)) :
    Laid (shapes x ++ xs.flatMap fun y => semicolon::shapes y)
      (text x ++ xs.flatMap fun y => Text.ofString ";" ++ text y) := by
  induction xs generalizing x with
  | nil => simpa using hx.laid
  | cons y ys ih =>
    have hrest := ih y (hxs y (by simp)) fun z hz => hxs z (by simp [hz])
    have hclose : ∀ l ∈ (shapes x).getLast?, l.Closes := by
      obtain ⟨z,hz,hc⟩ := hx.closes
      intro l hl
      rwa [Option.mem_unique hl hz]
    rw [List.flatMap_cons,List.flatMap_cons,List.append_assoc]
    exact laid_before_mark (c := ';') rfl (Or.inr rfl) hx.laid hclose hrest

/-- The lexemes behind the first statement are the further ones, each behind its semicolon. -/
lemma exists_further {xs : List α} (hxs : ∀ y ∈ xs, Coded (text y) (shapes y) (P y))
    {ls : List Lexeme} (h : ls.map Lexeme.shape = xs.flatMap fun y => semicolon::shapes y) :
    ∃ rest, ls = further rest ∧ (∀ p ∈ rest, p.1.shape = semicolon) ∧
      List.Forall₂ (fun p Q => Reads1 p.2 Q) rest (xs.map fun y => Checks (P y)) := by
  induction xs generalizing ls with
  | nil => exact ⟨[],List.map_eq_nil_iff.mp h,by simp,.nil⟩
  | cons y ys ih =>
    rw [List.flatMap_cons] at h
    obtain ⟨us,vs,rfl,hus,hvs⟩ := List.map_eq_append_iff.mp h
    obtain ⟨s,b,rfl,hs,hb⟩ := List.map_eq_cons_iff.mp hus
    obtain ⟨rest,rfl,hsep,hreads⟩ := ih (fun z hz => hxs z (by simp [hz])) hvs
    refine ⟨(s,b)::rest,rfl,?_,.cons ((hxs y (by simp)).reads b hb) hreads⟩
    intro p hp
    rcases List.mem_cons.mp hp with rfl | hp
    · exact hs
    · exact hsep p hp

lemma mapM_check {xs : List α} {cs : List Clause}
    (h : List.Forall₂ (fun Q c => Q c) (xs.map fun y => Checks (P y)) cs) :
    ∃ sts, cs.mapM Clause.check = .ok sts ∧ List.Forall₂ P xs sts := by
  induction xs generalizing cs with
  | nil =>
    obtain rfl := List.forall₂_nil_left_iff.mp h
    exact ⟨[],rfl,.nil⟩
  | cons y ys ih =>
    obtain ⟨c,ds,⟨st,hst,hP⟩,hds,rfl⟩ := List.forall₂_cons_left_iff.mp h
    obtain ⟨sts,hsts,hPs⟩ := ih hds
    refine ⟨st::sts,?_,.cons hP hPs⟩
    rw [List.mapM_cons,hst,hsts]
    rfl

/-- Statements with semicolons between them are compiled one by one. -/
theorem compile_sequence (x : α) {xs : List α} (hx : Coded (text x) (shapes x) (P x))
    (hxs : ∀ y ∈ xs, Coded (text y) (shapes y) (P y)) :
    ∃ p, Program.compile (text x ++ xs.flatMap fun y => Text.ofString ";" ++ text y) = .ok p ∧
      List.Forall₂ P (x::xs) p.statements := by
  obtain ⟨ls,hs,hm⟩ := Option.map_eq_some_iff.mp (laid_sequence x hx hxs).shapes?
  obtain ⟨b,ms,rfl,hb,hms⟩ := List.map_eq_append_iff.mp hm
  obtain ⟨rest,rfl,hsep,hreads⟩ := exists_further hxs hms
  have hsep' : ∀ p ∈ rest, p.1.text = Text.ofString ";" ∧ p.1.kind = .punctuation :=
    fun p hp => ⟨congrArg Shape.text (hsep p hp),congrArg Shape.kind (hsep p hp)⟩
  obtain ⟨cs,hcs,hp⟩ := clauses_of_reads (hx.reads b hb) hsep' hreads
  have hall : List.Forall₂ (fun Q c => Q c) ((x::xs).map fun y => Checks (P y)) cs := hcs
  obtain ⟨sts,hsts,hPs⟩ := mapM_check hall
  have hwhole : whole? clauses (text x ++ xs.flatMap fun y => Text.ofString ";" ++ text y) =
      some cs := by
    rw [whole?,hs,Option.bind_some,hp]
  refine ⟨⟨text x ++ xs.flatMap fun y => Text.ofString ";" ++ text y,sts⟩,?_,hPs⟩
  rw [Program.compile,hwhole]
  simp only [hsts]
  rfl

/-- A store of an expression is a program of its own. -/
lemma Program.compile_store {ref : Text} {key : Key} {k : Expr} {ks : List Shape}
    (hk : KeySpelled ref key k ks) {code : Text} {f : Formula} (hf : Formula.compile code = .ok f) :
    ∃ p e, Program.compile (storeText ref code none) = .ok p ∧
      p.statements = [.store none (some k) e] ∧ f.expr.SameTree e := by
  obtain ⟨-,-,ls,hs,-⟩ := Formula.compile_eq_ok_iff.mp hf
  have hviews : Views none := by simp [Views]
  have hcoded := coded_store hk hviews hf hs ((spelled_of_compile hf hs).laid hs)
  obtain ⟨p,hp,hsts⟩ := @compile_sequence Unit (fun _ => storeText ref code none)
    (fun _ => storeShapes ks (ls.map Lexeme.shape) none)
    (fun _ st => ∃ e, f.expr.SameTree e ∧ st = .store none (some k) e) () [] hcoded (by simp)
  obtain ⟨st,sts,⟨e,he,rfl⟩,hrest,hstatements⟩ := List.forall₂_cons_left_iff.mp hsts
  obtain rfl := List.forall₂_nil_left_iff.mp hrest
  rw [List.flatMap_nil,List.append_nil] at hp
  exact ⟨p,e,hp,hstatements,he⟩

end CellScript.Script
