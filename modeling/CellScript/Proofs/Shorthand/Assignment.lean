import Mathlib
import CellScript.Proofs.Script.Meaning
import CellScript.Proofs.Shorthand.Operand

/-! Assignments. A list of assignments is expanded to a script that stores the new values one after
the other, and stops where reading a cell, computing or storing fails. -/
namespace CellScript.Shorthand

open Script (Formula Program Statement Lexeme lex? Shape Laid Spot Blank PlainName quoteWith KeySpelled)

/-- How the key of a single cell is written between the brackets of an accessor: as a position from
the start or the end, as a name in quotes, or as a bare name when bare words are quoted. -/
inductive KeyWritten (quoting : Bool) : Text → Key → Prop
  | position {t : Text} : Text.IsDecimal t → Text.decimal t < 2^63 →
      KeyWritten quoting t (.index (Text.decimal t))
  | negative {t : Text} : Text.IsDecimal t → Text.decimal t < 2^63 →
      KeyWritten quoting (Text.ofString "-" ++ t) (.index (-Text.decimal t))
  | quoted {q : UInt8} {n : Text} : Text.isQuote q = true → PlainName n →
      KeyWritten quoting (quoteWith q n) (.name n)
  | bare {n : Text} : quoting = true → ColumnName n → KeyWritten quoting n (.name n)

def Cast.letter : Cast → UInt8
  | asIs => Text.ascii 'x'
  | toText => Text.ascii 's'
  | toFloat => Text.ascii 'f'
  | toInt => Text.ascii 'i'

def Cast.rowView : Cast → View
  | asIs | toText => .text
  | toFloat => .float
  | toInt => .int

/-- An assignment with the blanks around its parts. The ones around the operand belong to it. -/
structure Assignment (quoting : Bool) where
  lead : Text
  cast : Cast
  body : Text
  key : Key
  gap : Text
  /-- The operator of a compound assignment. -/
  operator : Option Arith
  value : Text
  formula : Formula
  lead_blank : Blank lead
  gap_blank : Blank gap
  keyed : KeyWritten quoting body key
  simple : ∀ op ∈ operator, op ∈ [Arith.add,.sub,.mul,.div]
  operand : Operand quoting value formula

namespace Assignment

variable {quoting : Bool}

def accessor (a : Assignment quoting) : Text :=
  a.cast.letter::Text.ascii '['::(a.body ++ [Text.ascii ']'])

/-- The operator as it is written, with its equals sign. -/
def sign (a : Assignment quoting) : Text :=
  (a.operator.elim [] Arith.symbol) ++ [Text.ascii '=']

def text (a : Assignment quoting) : Text :=
  a.lead ++ (a.accessor ++ (a.gap ++ (a.sign ++ a.value)))

/-- The new value. A compound assignment reads the old value through the conversion of its accessor
before it evaluates the operand. -/
def newValue (a : Assignment quoting) (l : Layout) (row : Row) : Except Script.Error Value :=
  match a.operator with
  | none => a.formula.value l row
  | some op => do
    let old ← Script.ofRow (a.cast.rowView.get l row a.key)
    let v ← a.formula.value l row
    Script.ofOperands (Value.arith op old v)

def apply (a : Assignment quoting) (l : Layout) (row : Row) : Except Script.Error Row := do
  let v ← a.newValue l row
  Script.ofRow (row.set l a.key v)

/-- Assignments in order up to the first failure, with the row reached. -/
def applyAll (l : Layout) : Row → List (Assignment quoting) → Row × Except Script.Error Unit
  | row,[] => (row,.ok ())
  | row,a::as =>
    match a.apply l row with
    | .ok row => applyAll l row as
    | .error e => (row,.error e)

/-- What stands between the brackets in the code. -/
def ref (a : Assignment quoting) : Text :=
  if bodyKind? a.body = some .ambiguous ∧ quoting = true then autoQuote a.body else a.body

end Assignment

variable {quoting : Bool}

namespace KeyWritten

variable {body : Text} {key : Key}

lemma bracket (h : KeyWritten quoting body key) : Text.ascii ']' ∉ body := by
  have hdigit : ∀ b : UInt8, Text.isDigit b = true → b ≠ Text.ascii ']' := by
    rintro b hb rfl
    exact absurd hb (by decide)
  cases h with
  | position ht => exact fun hm => hdigit _ (ht.2 _ hm) rfl
  | negative ht =>
    intro hm
    rcases List.mem_append.mp hm with hm | hm
    · exact absurd hm (by decide)
    · exact hdigit _ (ht.2 _ hm) rfl
  | @quoted q n hq hn =>
    intro hm
    simp only [quoteWith,List.mem_cons,List.mem_append,List.not_mem_nil,or_false] at hm
    rcases hm with rfl | hm | rfl
    · exact absurd hq (by decide)
    · exact hn.bracket hm
    · exact absurd hq (by decide)
  | bare _ hn => exact hn.bracket

/-- The kind of the accessor. -/
lemma kind (h : KeyWritten quoting body key) :
    bodyKind? body = some .accessor ∨ (bodyKind? body = some .ambiguous ∧ quoting = true) := by
  cases h with
  | position ht => exact Or.inl (bodyKind?_of_positional (isPositional_of_isDecimal ht))
  | negative ht => exact Or.inl (bodyKind?_of_positional (isPositional_of_negative ht))
  | quoted hq => exact Or.inl (bodyKind?_quoteWith hq _)
  | bare hquoting hn => exact Or.inr ⟨hn.bodyKind?,hquoting⟩

/-- What stands between the brackets in the code is spelled as the key. -/
lemma spelled (h : KeyWritten quoting body key) : ∃ e ks, KeySpelled
    (if bodyKind? body = some .ambiguous ∧ quoting = true then autoQuote body else body)
    key e ks := by
  cases h with
  | position ht hlt =>
    rw [bodyKind?_of_positional (isPositional_of_isDecimal ht),if_neg (by simp)]
    exact ⟨_,_,Script.keySpelled_position ht hlt⟩
  | negative ht hlt =>
    rw [bodyKind?_of_positional (isPositional_of_negative ht),if_neg (by simp)]
    exact ⟨_,_,Script.keySpelled_negative ht hlt⟩
  | quoted hq hn =>
    rw [bodyKind?_quoteWith hq,if_neg (by simp)]
    exact ⟨_,_,Script.keySpelled_quoted hq hn⟩
  | bare hquoting hn =>
    rw [if_pos ⟨hn.bodyKind?,hquoting⟩,autoQuote_of_name hn.noPosition]
    exact ⟨_,_,Script.keySpelled_quoted (by decide) hn.toPlainName⟩

lemma not_blankOnly (h : KeyWritten quoting body key) : Text.blankOnly body = false := by
  have hlaid : ∀ {e : Script.Expr} {ks : List Shape}, KeySpelled body key e ks →
      Text.blankOnly body = false := by
    intro e ks hk
    obtain ⟨l,ls,rfl⟩ := List.exists_cons_of_ne_nil hk.ne_nil
    exact hk.laid.not_blankOnly
  cases h with
  | position ht hlt => exact hlaid (Script.keySpelled_position ht hlt)
  | negative ht hlt => exact hlaid (Script.keySpelled_negative ht hlt)
  | quoted hq hn => exact hlaid (Script.keySpelled_quoted hq hn)
  | bare _ hn => exact hn.word

end KeyWritten

namespace Assignment

variable (a : Assignment quoting)

def kind : Kind := (bodyKind? a.body).getD .accessor

lemma bodyKind?_body : bodyKind? a.body = some a.kind := by
  rcases a.keyed.kind with h | ⟨h,-⟩ <;> rw [kind,h] <;> rfl

lemma kind_cases : a.kind = .accessor ∨ a.kind = .ambiguous := by
  rcases a.keyed.kind with h | ⟨h,-⟩ <;> rw [kind,h]
  · exact Or.inl rfl
  · exact Or.inr rfl

def field : Field := ⟨a.cast,a.ref⟩

lemma ofLetter?_letter (c : Cast) : Cast.ofLetter? c.letter = some c := by cases c <;> rfl

lemma field_token (pos : ℕ) : Token.field quoting ⟨a.kind,a.accessor,pos⟩ = .ok a.field := by
  have hsplit : Token.split ⟨a.kind,a.accessor,pos⟩ = .ok (a.cast,a.body) :=
    Token.split_bracketed (ofLetter?_letter a.cast) a.keyed.not_blankOnly a.kind pos
  rw [Token.field_of_split hsplit,field,ref,a.bodyKind?_body]
  simp

end Assignment

/-- Blanks in front of a text add no tokens. -/
lemma Cut.blanks {g t : Text} (hg : Blank g) {pos : ℕ} {before : Option UInt8} {ts : List Token}
    (h : Cut (pos+g.length) (g.getLast?.or before) t ts) : Cut pos before (g ++ t) ts := by
  induction g generalizing pos before with
  | nil => exact h
  | cons b g ih =>
    refine .blank (hg b (by simp)) (ih (fun c hc => hg c (by simp [hc])) ?_)
    have hlast : (b::g).getLast?.or before = g.getLast?.or (some b) := by
      rw [List.getLast?_cons]
      cases g.getLast? <;> rfl
    rwa [List.length_cons,hlast,show pos+(g.length+1) = pos+1+g.length by omega] at h

lemma opensAfter_blanks {g : Text} (hg : Blank g) {before : Option UInt8}
    (h : opensAfter before = true) : opensAfter (g.getLast?.or before) = true := by
  cases hl : g.getLast? with
  | none => exact h
  | some b =>
    have hb := hg b (List.mem_of_getLast? hl)
    simp only [Text.isBlank,Bool.or_eq_true,beq_iff_eq,or_assoc] at hb
    rcases hb with rfl | rfl | rfl | rfl <;> rfl

namespace Assignment

variable (a : Assignment quoting)

lemma isCastLetter_letter (c : Cast) : isCastLetter c.letter = true := by cases c <;> rfl

/-- The sign of an assignment is one token in front of every operand. -/
lemma operator?_sign {rest : Text} (h : rest.head? ≠ some (Text.ascii '=')) :
    operator? (a.sign ++ rest) = some (.assignment,a.sign.length) := by
  rw [sign]
  cases hop : a.operator with
  | none =>
    have hnext : (rest.head? == some (Text.ascii '=')) = false := by simpa using h
    simp [operator?,hnext]
    decide
  | some op =>
    have hsimple := a.simple op hop
    simp only [List.mem_cons,List.not_mem_nil,or_false] at hsimple
    rcases hsimple with rfl | rfl | rfl | rfl <;> rfl

lemma sign_ends : a.sign.getLast? = some (Text.ascii '=') := by
  rw [sign,List.getLast?_concat]

lemma operand_head_ne {ext : Text} (he : Ends ext) :
    (a.value ++ ext).head? ≠ some (Text.ascii '=') := by
  cases hv : a.value with
  | nil => exact he.head_ne (by decide)
  | cons b v =>
    have hne := a.operand.head_ne
    rwa [hv] at hne

/-- The tokens of an assignment: its accessor, its sign, and those of its operand. -/
theorem cut (pos : ℕ) {before : Option UInt8} (ho : opensAfter before = true) {ext : Text}
    {us : List Token} (he : Ends ext) (hu : ∀ last, Cut (pos+a.text.length) last ext us) :
    ∃ p q r, Cut pos before (a.text ++ ext) (⟨a.kind,a.accessor,p⟩::⟨.assignment,a.sign,q⟩::
      ((scan a.value).map (Token.shift r) ++ us)) := by
  have hletter : ∀ b ∈ a.accessor.head?, Text.isBlank b = false := by
    intro b hb
    rw [accessor,List.head?_cons,Option.mem_def,Option.some.injEq] at hb
    rw [← hb]
    cases a.cast <;> rfl
  have hfound := a.operator?_sign (a.operand_head_ne he)
  have hsign : ∀ b ∈ a.sign.head?, Text.isBlank b = false := by
    obtain ⟨w,rest,hw,hlen,hne,hall,-⟩ := operator?_eq_some hfound
    obtain ⟨hw,-⟩ := List.append_inj hw hlen
    rw [hw]
    exact fun b hb => (not_sticks_of_mem b (hall b (List.mem_of_mem_head? hb))).2.1
  have hlength : pos+a.text.length = pos+a.lead.length+a.accessor.length+a.gap.length+
      a.sign.length+a.value.length := by
    simp only [text,List.length_append]
    omega
  rw [hlength] at hu
  have hvalue := a.operand.cut (by rw [a.sign_ends]; rfl) he (hu (a.value.getLast?.or a.sign.getLast?))
  have hassign : Cut (pos+a.lead.length+a.accessor.length+a.gap.length)
      (a.gap.getLast?.or a.accessor.getLast?) (a.sign ++ (a.value ++ ext)) _ :=
    .token hsign (.operator hfound) hvalue
  have hgap := Cut.blanks a.gap_blank hassign
  have haccess := Cut.token hletter (.accessor (opensAfter_blanks a.lead_blank ho)
    (isCastLetter_letter a.cast) a.keyed.bracket a.bodyKind?_body) hgap
  have hall := Cut.blanks a.lead_blank haccess
  have htext : a.lead ++ (a.accessor ++ (a.gap ++ (a.sign ++ (a.value ++ ext)))) =
      a.text ++ ext := by simp [text]
  rw [htext] at hall
  exact ⟨_,_,_,hall⟩

/-- What is written for the accessor and the sign: the target, and for a compound assignment the old
value and an opening parenthesis. -/
def opening : List Text :=
  (a.field.target ++ Text.ofString " = ")::a.operator.elim [] fun op =>
    [a.field.read ++ Text.ofString " " ++ op.symbol ++ Text.ofString " ("]

def closing : List Text := a.operator.elim [] fun _ => [Text.ofString ")"]

def fragments : List Text :=
  a.opening ++ ((scan a.value).map (Token.readText quoting) ++ a.closing)

lemma visit_opening {d : Draft} (hp : d.pending = none) (ht : d.atTarget = true)
    (hg : d.inGroup = false) (p q : ℕ) :
    [⟨a.kind,a.accessor,p⟩,⟨.assignment,a.sign,q⟩].foldlM (Draft.visitStatement quoting) d =
      .ok { d with atTarget := false, inGroup := a.operator.isSome,
                   fragments := d.fragments ++ a.opening } := by
  obtain ⟨pending,atTarget,inGroup,fragments,newHeaders⟩ := d
  obtain rfl : pending = none := hp
  obtain rfl : atTarget = true := ht
  obtain rfl : inGroup = false := hg
  have htarget : Draft.visitStatement quoting ⟨none,true,false,fragments,newHeaders⟩
      ⟨a.kind,a.accessor,p⟩ = .ok ⟨some a.field,true,false,fragments,newHeaders⟩ := by
    have hf := a.field_token p
    rw [Draft.visitStatement]
    rcases a.kind_cases with hk | hk <;> rw [hk] at hf ⊢ <;> simp only [hf] <;> rfl
  have hassign : Draft.visitStatement quoting ⟨some a.field,true,false,fragments,newHeaders⟩
      ⟨.assignment,a.sign,q⟩ =
      .ok ⟨none,false,a.operator.isSome,fragments ++ a.opening,newHeaders⟩ := by
    simp only [Draft.visitStatement,Draft.assign,Draft.write]
    rw [opening,sign]
    cases a.operator with
    | none => simp
    | some op =>
      have hne : op.symbol ≠ [] := by cases op <;> decide
      simp [Draft.bareOperator,hne]
  simp only [List.foldlM_cons,List.foldlM_nil,htarget,hassign,bind,Except.bind,pure,Except.pure]

/-- The tokens of an assignment are expanded to its fragments. -/
theorem foldlM_tokens {d : Draft} (hp : d.pending = none) (ht : d.atTarget = true)
    (hg : d.inGroup = false) (p q r : ℕ) :
    ∃ e, (⟨a.kind,a.accessor,p⟩::⟨.assignment,a.sign,q⟩::(scan a.value).map (Token.shift r)).foldlM
        (Draft.visitStatement quoting) d = .ok e ∧
      e.endStatement.fragments = d.fragments ++ a.fragments ∧
      e.endStatement.newHeaders = d.newHeaders := by
  have hreadable : ∀ t ∈ (scan a.value).map (Token.shift r), t.Readable quoting := by
    intro t ht
    obtain ⟨x,hx,rfl⟩ := List.mem_map.mp ht
    exact ((a.operand.readable x hx).shift r).1
  have htexts : ((scan a.value).map (Token.shift r)).map (Token.readText quoting) =
      (scan a.value).map (Token.readText quoting) := by
    rw [List.map_map]
    exact List.map_congr_left fun x hx => ((a.operand.readable x hx).shift r).2
  have hopen := a.visit_opening hp ht hg p q
  obtain ⟨e,he,hflush⟩ := Draft.foldlM_readable { d with
    atTarget := false, inGroup := a.operator.isSome, fragments := d.fragments ++ a.opening } hreadable
  have hflush : e.flush = ⟨none,false,a.operator.isSome,d.fragments ++ a.opening ++
      (scan a.value).map (Token.readText quoting),d.newHeaders⟩ := by
    rw [hflush,htexts]
    simp [Draft.flush,hp]
  have hend : e.endStatement.fragments = d.fragments ++ a.fragments ∧
      e.endStatement.newHeaders = d.newHeaders := by
    rw [Draft.endStatement,hflush,fragments,closing]
    cases a.operator <;> simp [Draft.write]
  refine ⟨e,?_,hend⟩
  have hsplit : (⟨a.kind,a.accessor,p⟩::⟨.assignment,a.sign,q⟩::
      (scan a.value).map (Token.shift r) : List Token) =
      [⟨a.kind,a.accessor,p⟩,⟨.assignment,a.sign,q⟩] ++ (scan a.value).map (Token.shift r) := rfl
  rw [hsplit,List.foldlM_append,hopen]
  exact he

/-- The operator of a compound assignment, with the view that the old value is read through. -/
def old : Option (Arith × Option Text) := a.operator.map (·,a.cast.viewName)

/-- The byte in front of the operand in the code. -/
def lastOpening : UInt8 := if a.operator.isSome then Text.ascii '(' else Text.ascii ' '

def code : Text := Script.storeText a.ref
  (glueFrom (some a.lastOpening) ((scan a.value).map (Token.readText quoting))) a.old

end Assignment

lemma glue_of_not_sticks {c w : Text} (h : (∀ b ∈ c.getLast?, sticks b = false) ∨
    ∀ b ∈ w.head?, sticks b = false) : glue c w = c ++ w := by
  rw [glue_eq,joint]
  have hs : sticky c.getLast? w.head? = false := by
    cases hc : c.getLast? with
    | none => rfl
    | some x =>
      cases hw : w.head? with
      | none => rfl
      | some y =>
        rw [sticky]
        rcases h with h | h
        · rw [h x hc,Bool.false_and]
        · rw [h y hw,Bool.and_false]
  rw [hs]
  rfl

namespace Assignment

variable (a : Assignment quoting)

/-- The fragments of an assignment are glued to its code. -/
theorem foldl_glue_fragments {c : Text} (hc : ∀ b ∈ c.getLast?, sticks b = false) :
    a.fragments.foldl glue c = c ++ a.code := by
  have hequals : ∀ t : Text, (t ++ Text.ofString " = ").getLast? = some (Text.ascii ' ') := by
    intro t
    rw [List.getLast?_append_of_ne_nil _ (by decide)]
    rfl
  have hgroup : ∀ t : Text, (t ++ Text.ofString " (").getLast? = some (Text.ascii '(') := by
    intro t
    rw [List.getLast?_append_of_ne_nil _ (by decide)]
    rfl
  have htarget : glue c (a.field.target ++ Text.ofString " = ") =
      c ++ a.field.target ++ Text.ofString " = " := by
    rw [glue_of_not_sticks (Or.inl hc),List.append_assoc]
  rw [fragments,opening,closing,code,old,lastOpening]
  cases a.operator with
  | none =>
    simp only [Option.elim_none,List.cons_append,List.nil_append,List.append_nil,List.foldl_cons]
    rw [htarget,foldl_glue,hequals,Field.target_eq]
    simp [Script.storeText,Script.valueText,field]
  | some op =>
    have hread : glue (c ++ a.field.target ++ Text.ofString " = ")
        (a.field.read ++ Text.ofString " " ++ op.symbol ++ Text.ofString " (") =
        c ++ a.field.target ++ Text.ofString " = " ++ (a.field.read ++ Text.ofString " " ++
          op.symbol) ++ Text.ofString " (" := by
      rw [glue_of_not_sticks (Or.inl ?_)]
      · simp
      · rw [hequals]
        rintro b ⟨⟩
        rfl
    have hclose : ∀ b ∈ (Text.ofString ")").head?, sticks b = false := by
      rintro b ⟨⟩
      rfl
    simp only [Option.elim_some,List.cons_append,List.nil_append,List.foldl_cons,List.foldl_append,
      List.foldl_nil]
    rw [htarget,hread,foldl_glue,hgroup,glue_of_not_sticks (Or.inr hclose),Field.target_eq,
      Field.read_eq]
    simp [Script.storeText,Script.valueText,field]

lemma isName_view (c : Cast) : ∀ w ∈ c.viewName, Script.IsName w := by
  cases c with
  | asIs => rintro w ⟨⟩
  | toText =>
    rintro w ⟨⟩
    exact ⟨.char 's',[.char 't',.char 'r'],by decide,by decide +kernel,by decide +kernel⟩
  | toFloat =>
    rintro w ⟨⟩
    exact ⟨.char 'f',[.char 'l',.char 'o',.char 'a',.char 't'],by decide,by decide +kernel,
      by decide +kernel⟩
  | toInt =>
    rintro w ⟨⟩
    exact ⟨.char 'i',[.char 'n',.char 't'],by decide,by decide +kernel,by decide +kernel⟩

/-- A statement that stores the new value of an assignment, up to the places of names. -/
def Stores (st : Statement) : Prop :=
  ∃ k e, (∀ s, Script.evalKey s (some k) = .ok a.key) ∧ a.formula.expr.SameTree e ∧
    st = .store none (some k) (Script.valueExpr k e a.old)

/-- The lexemes of the code of an assignment are read as a statement that stores its new value. -/
theorem exists_coded : ∃ ss : List Shape, Script.Coded a.code ss a.Stores := by
  obtain ⟨k,ks,hk⟩ := a.keyed.spelled
  obtain ⟨ls,hs⟩ := a.operand.exists_lexemes
  have hviews : Script.Views a.old := by
    intro o ho w hw
    rw [old,Option.mem_def,Option.map_eq_some_iff] at ho
    obtain ⟨op,-,rfl⟩ := ho
    exact isName_view a.cast w hw
  have hsticks : sticks a.lastOpening = false := by
    rw [lastOpening]
    cases a.operator <;> rfl
  have hcoded := Script.coded_store hk hviews a.operand.compiled hs
    (a.operand.laid_glueFrom hs hsticks)
  refine ⟨_,hcoded.laid,hcoded.closes,fun b hb tail ht => ?_⟩
  obtain ⟨c,⟨st,hcheck,e,he,rfl⟩,hc⟩ := hcoded.reads b hb tail ht
  exact ⟨c,⟨_,hcheck,k,e,hk.value,he,rfl⟩,hc⟩

lemma viewOf_viewName (c : Cast) : Script.viewOf c.viewName = .ok c.rowView := by
  cases c <;> rfl

/-- The statement of an assignment stores the new value that it means. -/
lemma exec_store (l : Layout) (row : Row) {k : Script.Expr}
    (hk : ∀ s, Script.evalKey s (some k) = .ok a.key) :
    Script.exec { layout := l, row } (.store none (some k) (Script.valueExpr k a.formula.expr a.old)) =
      (a.apply l row).map fun row => { layout := l, row } := by
  have hvalue : Script.eval { layout := l, row } (Script.valueExpr k a.formula.expr a.old) =
      a.newValue l row := by
    rw [old,newValue]
    cases a.operator with
    | none => rfl
    | some op =>
      simp only [Option.map_some,Script.valueExpr,Script.eval,viewOf_viewName,hk]
      rfl
  rw [Script.exec,hvalue,apply,hk]
  cases a.newValue l row with
  | error e => rfl
  | ok v =>
    simp only [Script.viewOf,bind,Except.bind,pure,Except.pure]
    cases Script.ofRow (row.set l a.key v) <;> rfl

/-- Statements that store the new values of assignments run as the assignments do, up to the places of
names in failures. -/
theorem execAll_stores {as : List (Assignment quoting)} {sts : List Statement}
    (h : List.Forall₂ Stores as sts) (l : Layout) (row : Row) :
    (Script.execAll { layout := l, row } sts).1.row = (applyAll l row as).1 ∧
      Matched (Script.Error.Alike fun _ _ => False) Eq (applyAll l row as).2
        (Script.execAll { layout := l, row } sts).2 := by
  induction h generalizing row with
  | nil => exact ⟨rfl,.ok rfl⟩
  | @cons a st as sts hst _ ih =>
    obtain ⟨k,e,hk,he,rfl⟩ := hst
    have hscope : Script.Scope.Alike (fun _ _ => False) Eq l ⟨l,row,[]⟩ ⟨l,row,[]⟩ :=
      ⟨rfl,rfl,rfl,fun _ _ h => absurd h id,.nil⟩
    have hone : Value.OneToOne (Eq : Text.Position → Text.Position → Prop) :=
      ⟨fun _ _ _ h h' => h.symm.trans h',fun _ _ _ h h' => h.trans h'.symm⟩
    have hexec := Script.exec_alike hone hscope
      (.store none (Or.inl (Script.optionAlike_refl (some k))) (Script.alike_value k he a.old))
    rw [a.exec_store l row hk] at hexec
    rw [Script.execAll,applyAll]
    cases ha : a.apply l row with
    | error x =>
      rw [ha] at hexec
      cases hx : Script.exec ⟨l,row,[]⟩ (.store none (some k) (Script.valueExpr k e a.old)) with
      | ok s =>
        rw [hx] at hexec
        cases hexec
      | error y =>
        rw [hx] at hexec
        cases hexec with
        | error hxy => exact ⟨rfl,.error hxy⟩
    | ok row' =>
      rw [ha] at hexec
      cases hx : Script.exec ⟨l,row,[]⟩ (.store none (some k) (Script.valueExpr k e a.old)) with
      | error y =>
        rw [hx] at hexec
        cases hexec
      | ok s =>
        rw [hx] at hexec
        cases hexec with
        | ok hs =>
          obtain ⟨layout,reached,vars⟩ := s
          obtain rfl : layout = l := hs.right
          obtain rfl : reached = row' := hs.row
          obtain rfl : vars = [] := List.forall₂_nil_left_iff.mp hs.vars
          exact ih reached

end Assignment

/-- A failure without the place of the name that it is about. -/
def unplaced : Script.Error → Script.Error
  | .unboundName name _ => .unboundName name ⟨0,0⟩
  | e => e

lemma unplaced_of_alike {e e' : Script.Error} (h : e.Alike (fun _ _ => False) e') :
    unplaced e' = unplaced e := by
  cases h with
  | same => rfl
  | unbound => rfl
  | row h =>
    cases h with
    | same => rfl
    | unreadable _ _ _ hk | unstorable hk =>
      rcases hk with rfl | ⟨_,_,-,-,hno⟩
      · rfl
      · exact absurd hno id

lemma Draft.endStatement_pending (d : Draft) : d.endStatement.pending = none := by
  obtain ⟨pending,atTarget,inGroup,fragments,newHeaders⟩ := d
  cases pending <;> cases inGroup <;> rfl

lemma Draft.endStatement_inGroup (d : Draft) : d.endStatement.inGroup = false := by
  obtain ⟨pending,atTarget,inGroup,fragments,newHeaders⟩ := d
  cases pending <;> cases inGroup <;> rfl

namespace Assignment

def furtherText (as : List (Assignment quoting)) : Text :=
  as.flatMap fun a => Text.ofString ";" ++ a.text

def furtherFragments (as : List (Assignment quoting)) : List Text :=
  as.flatMap fun a => Text.ofString ";"::a.fragments

def furtherCode (as : List (Assignment quoting)) : Text :=
  as.flatMap fun a => Text.ofString ";" ++ a.code

lemma ends_furtherText (as : List (Assignment quoting)) : Ends (furtherText as) := by
  cases as with
  | nil => simp [furtherText,Ends]
  | cons a as =>
    intro b hb
    rw [furtherText,List.flatMap_cons,show Text.ofString ";" = [Text.ascii ';'] from rfl] at hb
    exact (Option.some.inj hb).symm

lemma join_text (a : Assignment quoting) (as : List (Assignment quoting)) :
    Text.join (Text.ofString ";") ((a::as).map text) = a.text ++ furtherText as := by
  induction as generalizing a with
  | nil => simp [Text.join,furtherText,List.intercalate]
  | cons b as ih =>
    rw [List.map_cons,List.map_cons,Script.join_cons_cons,← List.map_cons,ih]
    simp [furtherText]

/-- Further assignments are cut behind each of their separators, and expanded to their fragments. -/
theorem exists_furtherTokens (as : List (Assignment quoting)) (pos : ℕ) :
    ∃ us, (∀ last, Cut pos last (furtherText as) us) ∧
      ∀ d : Draft, ∃ e, us.foldlM (Draft.visitStatement quoting) d = .ok e ∧
        e.endStatement.fragments = d.endStatement.fragments ++ furtherFragments as := by
  induction as generalizing pos with
  | nil => exact ⟨[],fun _ => .nil,fun d => ⟨d,rfl,by simp [furtherFragments]⟩⟩
  | cons a as ih =>
    have hmark : Text.ofString ";" = [Text.ascii ';'] := rfl
    obtain ⟨us,hcut,hfold⟩ := ih (pos+1+a.text.length)
    obtain ⟨p,q,r,hstatement⟩ := a.cut (pos+1)
      (show opensAfter (some (Text.ascii ';')) = true from rfl) (ends_furtherText as) hcut
    refine ⟨⟨.separator,Text.ofString ";",pos⟩::⟨a.kind,a.accessor,p⟩::⟨.assignment,a.sign,q⟩::
      ((scan a.value).map (Token.shift r) ++ us),?_,?_⟩
    · intro last
      have htext : furtherText (a::as) = Text.ofString ";" ++ (a.text ++ furtherText as) := by
        simp [furtherText]
      rw [htext]
      refine .token ?_ (.operator ?_) hstatement
      · rw [hmark]
        rintro b ⟨⟩
        rfl
      · rw [hmark]
        rfl
    · intro d
      obtain ⟨e,he,hfragments,-⟩ := a.foldlM_tokens
        (d := { d.endStatement.write (Text.ofString ";") with atTarget := true })
        d.endStatement_pending rfl d.endStatement_inGroup p q r
      obtain ⟨e',he',hfragments'⟩ := hfold e
      refine ⟨e',?_,?_⟩
      · have hsplit : (⟨a.kind,a.accessor,p⟩::⟨.assignment,a.sign,q⟩::
            ((scan a.value).map (Token.shift r) ++ us) : List Token) =
            (⟨a.kind,a.accessor,p⟩::⟨.assignment,a.sign,q⟩::(scan a.value).map (Token.shift r)) ++
              us := rfl
        rw [List.foldlM_cons,hsplit]
        change List.foldlM (Draft.visitStatement quoting)
          { d.endStatement.write (Text.ofString ";") with atTarget := true } _ = _
        rw [List.foldlM_append,he]
        exact he'
      · rw [hfragments',hfragments]
        simp [furtherFragments,Draft.write]

lemma foldl_glue_further (as : List (Assignment quoting)) (c : Text) :
    (furtherFragments as).foldl glue c = c ++ furtherCode as := by
  have hhead : ∀ b ∈ (Text.ofString ";").head?, sticks b = false := by
    rintro b ⟨⟩
    rfl
  have hlast : ∀ t : Text, ∀ b ∈ (t ++ Text.ofString ";").getLast?, sticks b = false := by
    intro t b hb
    rw [List.getLast?_append_of_ne_nil _ (by decide)] at hb
    obtain ⟨⟩ := hb
    rfl
  induction as generalizing c with
  | nil => simp [furtherFragments,furtherCode]
  | cons a as ih =>
    have hcons : furtherFragments (a::as) = Text.ofString ";"::(a.fragments ++ furtherFragments as) :=
      by simp [furtherFragments]
    rw [hcons,List.foldl_cons,List.foldl_append,glue_of_not_sticks (Or.inr hhead),
      a.foldl_glue_fragments (hlast c),ih]
    simp [furtherCode]

def codeOf : List (Assignment quoting) → Text
  | [] => []
  | a::as => a.code ++ furtherCode as

/-- Assignments with separators between them are expanded to their codes with semicolons between
them. -/
theorem expand_assignments (as : List (Assignment quoting)) :
    ∃ x, expand .statement quoting (Text.join (Text.ofString ";") (as.map text)) = .ok x ∧
      x.code = codeOf as := by
  cases as with
  | nil => exact ⟨⟨[],[]⟩,rfl,rfl⟩
  | cons a as =>
    obtain ⟨us,hcut,hfold⟩ := exists_furtherTokens as (0+a.text.length)
    obtain ⟨p,q,r,hstatement⟩ := a.cut 0 (show opensAfter none = true from rfl)
      (ends_furtherText as) hcut
    obtain ⟨e,he,hfragments,-⟩ := a.foldlM_tokens (d := {}) rfl rfl rfl p q r
    obtain ⟨e',he',hfragments'⟩ := hfold e
    have hscan : scan (Text.join (Text.ofString ";") ((a::as).map text)) =
        (⟨a.kind,a.accessor,p⟩::⟨.assignment,a.sign,q⟩::(scan a.value).map (Token.shift r)) ++ us := by
      rw [join_text]
      exact hstatement.scanFrom_eq
    refine ⟨e'.finish,?_,?_⟩
    · rw [expand,hscan,List.foldlM_append]
      rw [show Draft.visit .statement quoting = Draft.visitStatement quoting from rfl,he]
      change (List.foldlM (Draft.visitStatement quoting) e us) >>= _ = _
      rw [he']
      rfl
    · rw [Draft.finish,glueAll,hfragments',hfragments,List.nil_append,List.foldl_append,
        a.foldl_glue_fragments (by simp),foldl_glue_further]
      rfl

/-- The code of assignments compiles to statements that store their new values. -/
theorem compile_codeOf (as : List (Assignment quoting)) :
    ∃ p, Program.compile (codeOf as) = .ok p ∧ List.Forall₂ Stores as p.statements := by
  choose shapes hshapes using fun a : Assignment quoting => a.exists_coded
  cases as with
  | nil => exact ⟨⟨[],[]⟩,rfl,.nil⟩
  | cons a as => exact Script.compile_sequence a (hshapes a) fun b _ => hshapes b

/-- Assignments with separators between them compile, and the code does on every row what the
assignments mean: it reaches the same row and has the same failure, if any. -/
theorem run_assignments (as : List (Assignment quoting)) :
    ∃ x p, expand .statement quoting (Text.join (Text.ofString ";") (as.map text)) = .ok x ∧
      Program.compile x.code = .ok p ∧
      ∀ l row, (p.run l row).1 = (applyAll l row as).1 ∧
        (p.run l row).2.mapError unplaced = (applyAll l row as).2.mapError unplaced := by
  obtain ⟨x,hx,hcode⟩ := expand_assignments as
  obtain ⟨p,hp,hstores⟩ := compile_codeOf as
  refine ⟨x,p,hx,by rw [hcode,hp],?_⟩
  intro l row
  obtain ⟨hrow,hresult⟩ := execAll_stores hstores l row
  refine ⟨hrow,?_⟩
  change (Script.execAll { layout := l, row } p.statements).2.mapError unplaced = _
  generalize (Script.execAll { layout := l, row } p.statements).2 = y at hresult
  generalize (applyAll l row as).2 = z at hresult
  cases hresult with
  | ok h => rw [h]
  | error h => exact congrArg Except.error (unplaced_of_alike h)

/-- A compound assignment to a bare name and a store at the last position, with blanks around their
parts. -/
theorem run_assignments_totals : ∃ as : List (Assignment true),
    Text.join (Text.ofString ";") (as.map text) =
        Text.ofString "f[total] += i[1] * (2 + f[\"net\"]) ;s[-1]= 'a;b'" ∧
      ∃ x p, expand .statement true (Text.join (Text.ofString ";") (as.map text)) = .ok x ∧
        Program.compile x.code = .ok p ∧
        ∀ l row, (p.run l row).1 = (applyAll l row as).1 ∧
          (p.run l row).2.mapError unplaced = (applyAll l row as).2.mapError unplaced := by
  have htotal : isOperand true (Text.ofString " i[1] * (2 + f[\"net\"]) ") = true := by decide +kernel
  have hlast : isOperand true (Text.ofString " 'a;b'") = true := by decide +kernel
  obtain ⟨f,hf⟩ := isOperand_iff.mp htotal
  obtain ⟨g,hg⟩ := isOperand_iff.mp hlast
  have hblank : Blank (Text.ofString " ") := by
    unfold Blank
    decide +kernel
  have hname : KeyWritten true (Text.ofString "total") (.name (Text.ofString "total")) :=
    .bare rfl ⟨⟨by decide +kernel,by decide +kernel,by decide +kernel,by decide +kernel⟩,
      by decide +kernel,by decide +kernel,by decide +kernel⟩
  have hposition : KeyWritten true (Text.ofString "-1") (.index (-1)) :=
    .negative (t := Text.ofString "1") ⟨by decide +kernel,by decide +kernel⟩ (by decide +kernel)
  let total : Assignment true := ⟨[],.toFloat,Text.ofString "total",_,Text.ofString " ",some .add,_,f,
    by simp [Blank],hblank,hname,by simp,hf⟩
  let last : Assignment true := ⟨[],.toText,Text.ofString "-1",_,[],none,_,g,by simp [Blank],
    by simp [Blank],hposition,by simp,hg⟩
  exact ⟨[total,last],rfl,run_assignments [total,last]⟩

/-- The least word cannot be written as a position: its digits are no word without their sign. -/
theorem compile_least_position :
    (scan (Text.ofString "s[-9223372036854775808] = 1")).map Token.kind =
        [.accessor,.assignment,.passthrough] ∧
      isOperand true (Text.ofString " 1") = true ∧
      ∃ x, expand .statement true (Text.ofString "s[-9223372036854775808] = 1") = .ok x ∧
        ∀ p, Program.compile x.code ≠ .ok p := by
  refine ⟨by decide +kernel,by decide +kernel,
    ⟨Text.ofString "row[-9223372036854775808] = 1",[]⟩,by decide +kernel,?_⟩
  intro p hp
  have hnone : (Program.compile (Text.ofString "row[-9223372036854775808] = 1")).toOption.isSome =
      false := by decide +kernel
  rw [hp] at hnone
  simp [Except.toOption] at hnone

end Assignment

end CellScript.Shorthand
