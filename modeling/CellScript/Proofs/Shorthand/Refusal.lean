import Mathlib
import CellScript.Proofs.Shorthand.LookAhead
import CellScript.Stream.Cause

/-! Refused accessors. Whether a token can be taken in is told by its kind and its text alone, and an
expansion fails at the first token that cannot. -/
namespace CellScript.Shorthand

def Token.content (t : Token) : Text := (t.lexeme.drop 2).dropLast

/-- What is wrong with a token: brackets that hold nothing but white space, a label with quotes, or a
new column in a filter. -/
def Token.fault? (mode : Mode) (t : Token) : Option Reason :=
  match t.kind,mode with
  | .ambiguous,_ => if Text.blankOnly t.content then some .emptyBracket else none
  | .append,.statement => if t.lexeme.any Text.isQuote then some .quotedLabel else none
  | .append,.filter => some .appendInFilter
  | _,_ => none

def Token.refusal? (mode : Mode) (t : Token) : Option Error := (t.fault? mode).map t.refuse

/-- An accessor: a letter, and a body in brackets that tells its kind. -/
structure Token.Bracketed (t : Token) (cast : Cast) (body : Text) : Prop where
  lexeme : ∃ c, Cast.ofLetter? c = some cast ∧
    t.lexeme = c::Text.ascii '['::(body ++ [Text.ascii ']'])
  closed : Text.ascii ']' ∉ body
  kind : bodyKind? body = some t.kind

lemma exists_bracketed {src : Text} {t : Token} (h : t ∈ scan src)
    (hk : t.kind.isAccessor = true) : ∃ cast body, t.Bracketed cast body := by
  obtain ⟨p,r,hbetween⟩ := exists_between h
  have hp := hbetween.piece
  generalize hkind : t.kind = kind at hp hk
  generalize hw : t.lexeme = w at hp
  cases hp with
  | @accessor c _ body _ _ hc hbody hbodyKind =>
    obtain ⟨cast,hcast⟩ := exists_ofLetter? hc
    exact ⟨cast,body,⟨c,hcast,hw⟩,hbody,by rw [hkind,hbodyKind]⟩
  | operator ho =>
    obtain ⟨_,_,_,_,_,_,hno⟩ := operator?_eq_some ho
    rw [hk] at hno
    simp at hno
  | run => simp [Kind.isAccessor] at hk

/-- The plus sign of a new column has nothing but spaces and tabs in front of it. -/
lemma appended?_eq_some {body rest : Text} (h : appended? body = some rest) :
    ∃ g, body = g ++ Text.ascii '+'::rest ∧ ∀ b ∈ g, b = Text.ascii ' ' ∨ b = Text.ascii '\t' := by
  refine ⟨body.takeWhile fun b => b == Text.ascii ' ' || b == Text.ascii '\t',?_,?_⟩
  · rw [appended?] at h
    split at h
    · simp at h
    · rename_i b more hmore
      simp only [Option.ite_none_right_eq_some,Option.some.injEq,beq_iff_eq] at h
      obtain ⟨rfl,rfl⟩ := h
      rw [← hmore,List.takeWhile_append_dropWhile]
  · intro b hb
    simpa using List.mem_takeWhile_imp hb

namespace Token.Bracketed

variable {t : Token} {cast : Cast} {body : Text}

lemma content_eq (h : t.Bracketed cast body) : t.content = body := by
  obtain ⟨c,-,hw⟩ := h.lexeme
  simp [content,hw]

lemma split_eq (h : t.Bracketed cast body) : t.split =
    if Text.blankOnly body then .error (t.refuse .emptyBracket) else .ok (cast,body) := by
  obtain ⟨c,hc,hw⟩ := h.lexeme
  have hlast : (Text.ascii '['::(body ++ [Text.ascii ']'])).getLast? = some (Text.ascii ']') := by
    rw [← List.cons_append,List.getLast?_concat]
  simp only [Token.split,hw,hc,hlast]
  simp

lemma exists_appended (h : t.Bracketed cast body) (hk : t.kind = .append) :
    ∃ rest, appended? body = some rest := by
  have hkind := h.kind
  rw [hk,bodyKind?] at hkind
  by_cases happended : (appended? body).isSome = true
  · exact Option.isSome_iff_exists.mp happended
  · rw [if_neg happended] at hkind
    split_ifs at hkind <;> simp at hkind

/-- Only a bare word can be white space. -/
lemma not_blankOnly (h : t.Bracketed cast body) (hk : t.kind ≠ .ambiguous) :
    Text.blankOnly body = false := by
  have hkind := h.kind
  rw [bodyKind?] at hkind
  split_ifs at hkind with happended hpositional hbare hempty
  · obtain ⟨rest,hrest⟩ := Option.isSome_iff_exists.mp happended
    obtain ⟨g,rfl,-⟩ := appended?_eq_some hrest
    exact Text.not_blankOnly_of_mem (b := Text.ascii '+') (by decide) (by simp)
  · -- a position has a digit, a colon or a minus sign
    have hvisible : ∀ b : UInt8, isPositionByte b = true → Text.IsVisible b := by decide +kernel
    cases body with
    | nil => simp [isPositional] at hpositional
    | cons b body =>
      have hb : isPositionByte b = true := by
        simp only [isPositional,List.all_cons,Bool.and_eq_true] at hpositional
        exact hpositional.2.1
      exact Text.not_blankOnly_of_mem (hvisible b hb) (by simp)
  · exact absurd (Option.some.inj hkind).symm hk
  · -- what is no bare word has a quote
    obtain ⟨b,hb,hno⟩ : ∃ b ∈ body, isBareByte b = false := by
      simpa [isBare,List.isEmpty_iff.not.mp hempty] using hbare
    have hquote : Text.isQuote b = true := by
      have hne : b ≠ Text.ascii ']' := by
        rintro rfl
        exact h.closed hb
      simpa [isBareByte,hne] using hno
    exact Text.not_blankOnly_of_mem (Text.isVisible_of_isQuote hquote) hb

end Token.Bracketed

/-- The quotes of a new column are those of its label. -/
lemma Token.Bracketed.any_isQuote {t : Token} {cast : Cast} {body rest : Text}
    (h : t.Bracketed cast body) (hrest : appended? body = some rest) :
    rest.trim.any Text.isQuote = t.lexeme.any Text.isQuote := by
  obtain ⟨c,hc,hw⟩ := h.lexeme
  obtain ⟨g,rfl,hg⟩ := appended?_eq_some hrest
  have hletter : ∀ b : UInt8, (Cast.ofLetter? b).isSome = true → Text.isQuote b = false := by
    decide +kernel
  have hcast : Text.isQuote c = false := hletter c (by rw [hc]; rfl)
  have hfront : g.any Text.isQuote = false := by
    rw [List.any_eq_false]
    intro b hb
    rcases hg b hb with rfl | rfl <;> decide
  have hlabel : rest.trim.any Text.isQuote = rest.any Text.isQuote := by
    rw [Bool.eq_iff_iff,List.any_eq_true,List.any_eq_true]
    constructor
    · rintro ⟨b,hb,hquote⟩
      exact ⟨b,Text.trim_subset rest hb,hquote⟩
    · rintro ⟨b,hb,hquote⟩
      exact ⟨b,Text.mem_trim (Text.isVisible_of_isQuote hquote) hb,hquote⟩
  have hbracket : Text.isQuote (Text.ascii '[') = false := by decide
  have hclosing : Text.isQuote (Text.ascii ']') = false := by decide
  have hplus : Text.isQuote (Text.ascii '+') = false := by decide
  simp [hw,hlabel,hcast,hfront,hbracket,hclosing,hplus]

/-- A field is refused for an empty body. -/
lemma Token.Bracketed.field_eq_error_iff {t : Token} {cast : Cast} {body : Text}
    (h : t.Bracketed cast body) (hk : t.kind = .accessor ∨ t.kind = .ambiguous) (mode : Mode)
    (quoting : Bool) (e : Error) : t.field quoting = .error e ↔ t.refusal? mode = some e := by
  have hsplit := h.split_eq
  rcases hk with hk | hk
  · rw [h.not_blankOnly (by simp [hk]),if_neg (by simp)] at hsplit
    rw [Token.field_of_split hsplit]
    simp [refusal?,fault?,hk]
  · cases hblank : Text.blankOnly body with
    | false =>
      rw [hblank,if_neg (by simp)] at hsplit
      rw [Token.field_of_split hsplit]
      simp [refusal?,fault?,hk,h.content_eq,hblank]
    | true =>
      rw [hblank,if_pos rfl] at hsplit
      simp [field,hsplit,bind,Except.bind,refusal?,fault?,hk,h.content_eq,hblank]

/-- A new column is refused for quotes. -/
lemma Token.Bracketed.newColumn_eq_error_iff {t : Token} {cast : Cast} {body : Text}
    (h : t.Bracketed cast body) (hk : t.kind = .append) (e : Error) :
    t.newColumn = .error e ↔ t.refusal? .statement = some e := by
  obtain ⟨rest,hrest⟩ := h.exists_appended hk
  have hsplit := h.split_eq
  rw [h.not_blankOnly (by simp [hk]),if_neg (by simp)] at hsplit
  rw [newColumn,hsplit]
  simp only [bind,Except.bind,hrest,refusal?,fault?,hk,h.any_isQuote hrest]
  cases t.lexeme.any Text.isQuote <;> simp

/-- Whether a token is refused does not depend on what stands in front of it. -/
lemma Draft.visit_eq_error_iff {src : Text} {t : Token} (ht : t ∈ scan src) (mode : Mode)
    (quoting : Bool) (d : Draft) (e : Error) :
    d.visit mode quoting t = .error e ↔ t.refusal? mode = some e := by
  cases hk : t.kind with
  | accessor | ambiguous =>
    obtain ⟨cast,body,h⟩ := exists_bracketed ht (by rw [hk]; rfl)
    rw [← h.field_eq_error_iff (by simp [hk]) mode quoting e]
    cases mode with
    | statement =>
      rw [visit,visitStatement_accessor d (by simp [hk])]
      cases t.field quoting <;> simp [Except.map]
    | filter =>
      rw [visit,visitFilter_accessor d (by simp [hk])]
      cases t.field quoting <;> simp [Except.map]
  | append =>
    cases mode with
    | statement =>
      obtain ⟨cast,body,h⟩ := exists_bracketed ht (by rw [hk]; rfl)
      rw [← h.newColumn_eq_error_iff hk e,visit,visitStatement,hk]
      cases t.newColumn <;> simp [bind,Except.bind,pure,Except.pure]
    | filter => simp [visit,visitFilter,hk,Token.refusal?,Token.fault?]
  | assignment | separator | passthrough =>
    cases mode <;> simp [visit,visitStatement,visitFilter,hk,Token.refusal?,Token.fault?]

/-- Tokens are taken in up to the first one that is refused. -/
lemma Draft.foldlM_eq_error_iff {src : Text} {ts : List Token} (hts : ts ⊆ scan src) (mode : Mode)
    (quoting : Bool) (d : Draft) (e : Error) :
    ts.foldlM (visit mode quoting) d = .error e ↔ ts.findSome? (Token.refusal? mode) = some e := by
  induction ts generalizing d with
  | nil => simp [pure,Except.pure]
  | cons t ts ih =>
    have ht := d.visit_eq_error_iff (hts (by simp : t ∈ t::ts)) mode quoting
    rw [List.foldlM_cons,List.findSome?_cons]
    cases hv : d.visit mode quoting t with
    | error x =>
      rw [(ht x).mp hv]
      simp [bind,Except.bind]
    | ok f =>
      have hnone : t.refusal? mode = none := by
        by_contra hsome
        obtain ⟨x,hx⟩ := Option.ne_none_iff_exists'.mp hsome
        rw [(ht x).mpr hx] at hv
        simp at hv
      rw [hnone]
      exact ih (fun u hu => hts (List.mem_cons_of_mem t hu)) f

lemma expand_eq_error_iff (mode : Mode) (quoting : Bool) (src : Text) (e : Error) :
    expand mode quoting src = .error e ↔
      (scan src).findSome? (Token.refusal? mode) = some e := by
  rw [← Draft.foldlM_eq_error_iff (List.Subset.refl _) mode quoting {},expand]
  cases (scan src).foldlM (Draft.visit mode quoting) {} <;>
    simp [bind,Except.bind,pure,Except.pure]

/-- The text of a stage can only fail to expand for its accessors. -/
lemma cause_of_stage? {stage : Stage} {mode : Mode} {quoting : Bool} {src : Text} {e : Plan.Error}
    (h : Plan.stage? stage mode quoting src = .error e) : e.cause = .accessor := by
  rw [Plan.stage?] at h
  split at h
  · simp at h
  · split at h
    · simp at h
    · obtain rfl := Except.error.inj h
      rfl

/-- A source is refused exactly when one of its tokens has a fault, and then for the first one that
has. The error tells the place and the text of that token and its fault, and in every stage it counts
as one of accessors. No accessor of a source is refused for another reason than an empty body, and no
new column for another reason than quotes. -/
theorem expand_refuses (mode : Mode) (quoting : Bool) (src : Text) :
    ((expand mode quoting src).isOk = false ↔ ∃ t ∈ scan src, (t.fault? mode).isSome = true) ∧
    (∀ e, expand mode quoting src = .error e ↔ ∃ front t rest reason,
      scan src = front ++ t::rest ∧ (∀ u ∈ front, u.fault? mode = none) ∧
        t.fault? mode = some reason ∧ e = ⟨t.lexeme,t.pos,reason⟩) ∧
    (∀ stage e, Plan.stage? stage mode quoting src = .error e → e.cause = .accessor) ∧
    ∀ t ∈ scan src,
      (t.kind = .accessor ∨ t.kind = .ambiguous → ∀ e, t.field quoting = .error e →
        e.reason = .emptyBracket) ∧
      (t.kind = .append → ∀ e, t.newColumn = .error e → e.reason = .quotedLabel) := by
  have herror := expand_eq_error_iff mode quoting src
  refine ⟨?_,?_,fun _ _ => cause_of_stage?,?_⟩
  · have hok : (expand mode quoting src).isOk = false ↔ ∃ e, expand mode quoting src = .error e := by
      cases expand mode quoting src <;> simp [Except.isOk,Except.toBool]
    simp only [hok,herror,← Option.isSome_iff_exists,List.findSome?_isSome_iff,Token.refusal?,
      Option.isSome_map]
  · intro e
    rw [herror,List.findSome?_eq_some_iff]
    simp only [Token.refusal?,Option.map_eq_some_iff,Option.map_eq_none_iff,Token.refuse]
    constructor
    · rintro ⟨front,t,rest,hscan,⟨reason,hreason,rfl⟩,hfront⟩
      exact ⟨front,t,rest,reason,hscan,hfront,hreason,rfl⟩
    · rintro ⟨front,t,rest,reason,hscan,hfront,hreason,rfl⟩
      exact ⟨front,t,rest,hscan,⟨reason,hreason,rfl⟩,hfront⟩
  · intro t ht
    constructor
    · intro hk e he
      obtain ⟨cast,body,h⟩ := exists_bracketed ht (by rcases hk with hk | hk <;> rw [hk] <;> rfl)
      have hrefused := (h.field_eq_error_iff hk .filter quoting e).mp he
      rcases hk with hk | hk
      · simp [Token.refusal?,Token.fault?,hk] at hrefused
      · simp only [Token.refusal?,Token.fault?,hk,Option.map_eq_some_iff,
          Option.ite_none_right_eq_some,Option.some.injEq] at hrefused
        obtain ⟨_,⟨-,rfl⟩,rfl⟩ := hrefused
        rfl
    · intro hk e he
      obtain ⟨cast,body,h⟩ := exists_bracketed ht (by rw [hk]; rfl)
      have hrefused := (h.newColumn_eq_error_iff hk e).mp he
      simp only [Token.refusal?,Token.fault?,hk,Option.map_eq_some_iff,
        Option.ite_none_right_eq_some,Option.some.injEq] at hrefused
      obtain ⟨_,⟨-,rfl⟩,rfl⟩ := hrefused
      rfl

end CellScript.Shorthand
