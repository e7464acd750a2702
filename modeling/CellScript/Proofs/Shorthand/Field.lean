import Mathlib
import CellScript.Proofs.Result
import CellScript.Proofs.Script.Store
import CellScript.Shorthand.Expansion

/-! Accessors: the kinds that their bodies tell, and the fields that they stand for. -/
namespace CellScript.Shorthand

open Script (PlainName quoteWith)

variable {quoting : Bool}

lemma isPositionByte_of_isDigit {b : UInt8} (h : Text.isDigit b = true) :
    isPositionByte b = true := by simp [isPositionByte,h]

lemma not_isPositionByte_of_isQuote {q : UInt8} (h : Text.isQuote q = true) :
    isPositionByte q = false := by
  obtain ⟨c,rfl,hc⟩ := Script.isQuote_iff.mp h
  rcases hc with rfl | rfl <;> decide

/-- Only blanks and a plus sign start a new column. -/
lemma appended?_eq_none {b : UInt8} (t : Text) (h1 : b ≠ Text.ascii ' ') (h2 : b ≠ Text.ascii '\t')
    (h3 : b ≠ Text.ascii '+') : appended? (b::t) = none := by
  simp [appended?,h1,h2,h3]

lemma bodyKind?_of_positional {t : Text} (h : isPositional t = true) : bodyKind? t = some .accessor := by
  have hbyte : ∀ b : UInt8, isPositionByte b = true →
      b ≠ Text.ascii ' ' ∧ b ≠ Text.ascii '\t' ∧ b ≠ Text.ascii '+' := by
    intro b hb
    refine ⟨?_,?_,?_⟩ <;> rintro rfl <;> exact absurd hb (by decide)
  cases t with
  | nil => simp [isPositional] at h
  | cons b t =>
    have hb : isPositionByte b = true := by
      simp only [isPositional,List.all_cons,Bool.and_eq_true] at h
      exact h.2.1
    obtain ⟨h1,h2,h3⟩ := hbyte b hb
    simp [bodyKind?,appended?_eq_none t h1 h2 h3,h]

lemma isPositional_of_isDecimal {t : Text} (h : Text.IsDecimal t) : isPositional t = true := by
  obtain ⟨hne,hd⟩ := h
  simp only [isPositional,Bool.and_eq_true,List.all_eq_true]
  exact ⟨by simpa using hne,fun b hb => isPositionByte_of_isDigit (hd b hb)⟩

lemma isPositional_of_negative {t : Text} (h : Text.IsDecimal t) :
    isPositional (Text.ofString "-" ++ t) = true := by
  have hminus : isPositional (Text.ofString "-") = true := by decide
  have hdigits := isPositional_of_isDecimal h
  simp only [isPositional,Bool.and_eq_true] at hminus hdigits ⊢
  rw [List.all_append,hminus.2,hdigits.2]
  exact ⟨rfl,rfl⟩

/-- A body that starts with a quote is no bare word. -/
lemma bodyKind?_of_quote {q : UInt8} (hq : Text.isQuote q = true) (t : Text) :
    bodyKind? (q::t) = some .accessor := by
  have hbyte : q ≠ Text.ascii ' ' ∧ q ≠ Text.ascii '\t' ∧ q ≠ Text.ascii '+' := by
    refine ⟨?_,?_,?_⟩ <;> rintro rfl <;> exact absurd hq (by decide)
  have hpos := not_isPositionByte_of_isQuote hq
  have happ := appended?_eq_none t hbyte.1 hbyte.2.1 hbyte.2.2
  simp [bodyKind?,happ,isPositional,hpos,isBare,isBareByte,hq]

lemma bodyKind?_quoteWith {q : UInt8} (hq : Text.isQuote q = true) (n : Text) :
    bodyKind? (quoteWith q n) = some .accessor :=
  bodyKind?_of_quote hq (n ++ [q])

/-- A name that an accessor takes for a column as it stands between its brackets. -/
structure ColumnName (n : Text) : Prop extends PlainName n where
  word : Text.blankOnly n = false
  noPosition : isPositional n = false
  noColumn : appended? n = none

lemma ColumnName.bodyKind? {n : Text} (h : ColumnName n) : bodyKind? n = some .ambiguous := by
  have hbare : isBare n = true := by
    simp only [isBare,Bool.and_eq_true,List.all_eq_true]
    refine ⟨?_,fun b hb => ?_⟩
    · cases n with
      | nil => exact absurd h.word (by decide)
      | cons => rfl
    · have hne : b ≠ Text.ascii ']' := by
        rintro rfl
        exact h.bracket hb
      simp [isBareByte,h.quote b hb,hne]
  simp [Shorthand.bodyKind?,h.noColumn,h.noPosition,hbare]

lemma autoQuote_of_name {n : Text} (h : isPositional n = false) :
    autoQuote n = quoteWith (Text.ascii '"') n := by
  have hquote : Text.ofString "\"" = [Text.ascii '"'] := by decide
  rw [autoQuote,h,hquote]
  simp [quoteWith]

lemma Field.target_eq (f : Field) : f.target = Script.cellText none f.ref := by
  simp [Field.target,Script.cellText,Script.viewWords,rowName]

def Cast.viewName (c : Cast) : Option Text := if c.view.isEmpty then none else some c.view

lemma Field.read_eq (f : Field) : f.read = Script.cellText f.cast.viewName f.ref := by
  obtain ⟨c,ref⟩ := f
  cases c with
  | asIs => exact Field.target_eq ⟨.asIs,ref⟩
  | toText | toFloat | toInt => rfl

lemma Field.read_ends (f : Field) : ∃ u, f.read = Text.ascii 'r'::(u ++ [Text.ascii ']']) := by
  rw [Field.read_eq]
  refine ⟨[Text.ascii 'o',Text.ascii 'w'] ++ ((Script.viewWords f.cast.viewName).flatten ++
    (Text.ofString "[" ++ f.ref)),?_⟩
  have hrow : Text.ofString "row" = [Text.ascii 'r',Text.ascii 'o',Text.ascii 'w'] := by decide
  have hclose : Text.ofString "]" = [Text.ascii ']'] := by decide
  simp [Script.cellText,hrow,hclose]

/-- An accessor is a letter and a body in brackets. -/
lemma Token.split_eq_ok {t : Token} {c : Cast} {body : Text} (h : t.split = .ok (c,body)) :
    body ⊆ t.lexeme ∧ ∀ pos, Token.split { t with pos := pos } = .ok (c,body) := by
  obtain ⟨k,lexeme,pos⟩ := t
  cases lexeme with
  | nil => simp [Token.split] at h
  | cons letter rest =>
    simp only [Token.split] at h ⊢
    cases hc : Cast.ofLetter? letter with
    | none => simp [hc] at h
    | some cast =>
      simp only [hc] at h ⊢
      split_ifs at h with h1 h2
      refine ⟨?_,fun n => by rw [if_neg h1,if_neg h2]; exact h⟩
      simp only [Except.ok.injEq,Prod.mk.injEq] at h
      rw [← h.2]
      intro b hb
      exact List.mem_cons_of_mem _ (List.drop_subset 1 rest (List.dropLast_subset _ hb))

lemma Token.split_bracketed {c : UInt8} {cast : Cast} (hc : Cast.ofLetter? c = some cast)
    {body : Text} (hb : Text.blankOnly body = false) (kind : Kind) (pos : ℕ) :
    Token.split ⟨kind,c::Text.ascii '['::(body ++ [Text.ascii ']']),pos⟩ = .ok (cast,body) := by
  have hlast : (Text.ascii '['::(body ++ [Text.ascii ']'])).getLast? = some (Text.ascii ']') := by
    rw [← List.cons_append,List.getLast?_concat]
  simp only [Token.split,hc,hlast]
  simp [hb]

lemma Token.field_eq_ok {t : Token} {f : Field} (h : t.field quoting = .ok f) :
    ∃ body, t.split = .ok (f.cast,body) ∧
      f.ref = if t.kind == .ambiguous && quoting then autoQuote body else body := by
  rw [Token.field,bind_eq_ok_iff] at h
  obtain ⟨⟨c,body⟩,hs,h⟩ := h
  rw [← Except.ok.inj h]
  exact ⟨body,hs,rfl⟩

lemma Token.field_of_split {t : Token} {c : Cast} {body : Text} (h : t.split = .ok (c,body)) :
    t.field quoting =
      .ok ⟨c,if t.kind == .ambiguous && quoting then autoQuote body else body⟩ := by
  rw [Token.field,h]
  rfl

/-- The offset of an accessor makes no difference to its field. -/
lemma Token.field_at {t : Token} {f : Field} (h : t.field quoting = .ok f) (pos : ℕ) :
    Token.field quoting { t with pos := pos } = .ok f := by
  obtain ⟨body,hs,hr⟩ := Token.field_eq_ok h
  rw [Token.field_of_split ((Token.split_eq_ok hs).2 pos)]
  obtain ⟨c,ref⟩ := f
  rw [show ref = _ from hr]

lemma Draft.visitStatement_accessor (d : Draft) {t : Token}
    (hk : t.kind = .accessor ∨ t.kind = .ambiguous) : d.visitStatement quoting t =
      (t.field quoting).map fun f => { d.flush with pending := some f } := by
  rcases hk with hk | hk <;> simp only [visitStatement,hk] <;> cases t.field quoting <;> rfl

lemma Draft.visitFilter_accessor (d : Draft) {t : Token}
    (hk : t.kind = .accessor ∨ t.kind = .ambiguous) : d.visitFilter quoting t =
      (t.field quoting).map fun f => d.write f.read := by
  rcases hk with hk | hk <;> simp only [visitFilter,hk] <;> cases t.field quoting <;> rfl

end CellScript.Shorthand
