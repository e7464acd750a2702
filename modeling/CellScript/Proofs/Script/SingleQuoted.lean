import Mathlib
import CellScript.Proofs.Script.Enclosed
import CellScript.Proofs.Script.Layout
import CellScript.Script.Literal

/-! String literals in single quotes. Replacing the escaped quotes of a text and then its escaped
backslashes is one pass over its escapes. Every text has a literal that is one lexeme and stands for
it. -/
namespace CellScript.Script

/-- The bytes that are escaped between single quotes. -/
def isEscaped (b : UInt8) : Bool := b == Text.ascii '\\' || b == Text.ascii '\''

/-- A text with a backslash in front of its quotes and backslashes. -/
def escapeSingle : Text → Text
  | [] => []
  | b::t => if isEscaped b then Text.ascii '\\'::b::escapeSingle t else b::escapeSingle t

def quoteLiteral (t : Text) : Text := Text.ascii '\''::(escapeSingle t ++ [Text.ascii '\''])

lemma isEscaped_iff {b : UInt8} :
    isEscaped b = true ↔ b = Text.ascii '\\' ∨ b = Text.ascii '\'' := by
  simp [isEscaped]

lemma enclosed_escapeSingle (t : Text) : Enclosed (Text.ascii '\\') (Text.ascii '\'')
    (· ≠ Text.ascii '\n') (escapeSingle t) := by
  induction t with
  | nil => exact .nil
  | cons b t ih =>
    rw [escapeSingle]
    split
    · next h =>
      refine .escape ?_ ih
      rcases isEscaped_iff.mp h with rfl | rfl <;> decide
    · next h =>
      rw [isEscaped_iff,not_or] at h
      exact .plain h.1 h.2 ih

lemma quoteLiteral_eq (t : Text) : quoteLiteral t = quoteWith (Text.ascii '\'') (escapeSingle t) := rfl

/-- A text decoded in one pass from the left: the backslash in front of a quote or a backslash goes,
and every other escape stays as it is. -/
def decodeEscapes : Text → Text
  | a::b::t =>
    if a = Text.ascii '\\' then
      if isEscaped b then b::decodeEscapes t else a::b::decodeEscapes t
    else a::decodeEscapes (b::t)
  | t => t

lemma decodeEscapes_cons {b : UInt8} (hb : b ≠ Text.ascii '\\') (t : Text) :
    decodeEscapes (b::t) = b::decodeEscapes t := by
  cases t with
  | nil => rfl
  | cons c t => rw [decodeEscapes,if_neg hb]

lemma decodeEscapes_escape (b : UInt8) (t : Text) : decodeEscapes (Text.ascii '\\'::b::t) =
    if isEscaped b then b::decodeEscapes t else Text.ascii '\\'::b::decodeEscapes t := by
  rw [decodeEscapes,if_pos rfl]

lemma replace_cons_of_ne {old new : Text} {o b : UInt8} (hb : b ≠ o) (t : Text) :
    Text.replace (o::old) new (b::t) = b::Text.replace (o::old) new t := by
  have hp : (o::old).isPrefixOf (b::t) = false := by simp [List.isPrefixOf,hb.symm]
  simp [Text.replace,Text.replaceFrom,hp]

lemma replace_pair {o p : UInt8} (new t : Text) :
    Text.replace [o,p] new (o::p::t) = new ++ Text.replace [o,p] new t := by
  simp [Text.replace,Text.replaceFrom,List.isPrefixOf]

lemma replace_cons_of_head {o p : UInt8} {new t : Text} (h : t.head? ≠ some p) :
    Text.replace [o,p] new (o::t) = o::Text.replace [o,p] new t := by
  have hp : [o,p].isPrefixOf (o::t) = false := by
    cases t with
    | nil => simp [List.isPrefixOf]
    | cons c t =>
      have hc : c ≠ p := by simpa using h
      simp [List.isPrefixOf,hc.symm]
  simp [Text.replace,Text.replaceFrom,hp]

lemma decodeSingle_eq (t : Text) : decodeSingle t =
    Text.replace [Text.ascii '\\',Text.ascii '\\'] [Text.ascii '\\']
      (Text.replace [Text.ascii '\\',Text.ascii '\''] [Text.ascii '\''] t) := rfl

/-- Two replacements one after the other decode like one pass, since no quote stands in the text
without a backslash that escapes it. -/
theorem decodeSingle_enclosed {escapes : UInt8 → Prop} {t : Text}
    (h : Enclosed (Text.ascii '\\') (Text.ascii '\'') escapes t) :
    decodeSingle t = decodeEscapes t := by
  have hne : Text.ascii '\'' ≠ Text.ascii '\\' := by decide
  rw [decodeSingle_eq]
  induction h with
  | nil => rfl
  | @plain b t hs _ _ ih =>
    rw [replace_cons_of_ne hs,replace_cons_of_ne hs,decodeEscapes_cons hs,ih]
  | @escape b t _ ht ih =>
    rw [decodeEscapes_escape]
    by_cases hq : b = Text.ascii '\''
    · subst hq
      rw [replace_pair,if_pos (by decide),List.singleton_append,replace_cons_of_ne hne,ih]
    · by_cases hs : b = Text.ascii '\\'
      · -- no quote follows the second backslash, so the first replacement keeps both
        subst hs
        rw [replace_cons_of_head (by simpa using hne.symm),replace_cons_of_head (ht.head?_ne hne),
          replace_pair,if_pos (by decide),List.singleton_append,ih]
      · have he : isEscaped b = false := by
          rw [← Bool.not_eq_true,isEscaped_iff,not_or]
          exact ⟨hs,hq⟩
        rw [replace_cons_of_head (by simpa using hq),replace_cons_of_ne hs,
          replace_cons_of_head (by simpa using hs),replace_cons_of_ne hs,he,ih]
        rfl

/-- The escapes of a text are undone. -/
lemma decodeEscapes_escapeSingle (t : Text) : decodeEscapes (escapeSingle t) = t := by
  induction t with
  | nil => rfl
  | cons b t ih =>
    rw [escapeSingle]
    by_cases h : isEscaped b = true
    · rw [if_pos h,decodeEscapes_escape,if_pos h,ih]
    · have hs : b ≠ Text.ascii '\\' := fun hb => h (isEscaped_iff.mpr (Or.inl hb))
      rw [if_neg h,decodeEscapes_cons hs,ih]

lemma literalBody_quoteWith (q : UInt8) (n : Text) : literalBody (quoteWith q n) = n := by
  simp [literalBody,quoteWith]

/-- A literal in single quotes stands for the text it was made of. -/
theorem decodeLiteral_quoteLiteral (t : Text) : decodeLiteral (quoteLiteral t) = t := by
  have hne : ¬ (quoteLiteral t).head? = some (Text.ascii '"') := by
    simp only [quoteLiteral,List.head?_cons,Option.some.injEq]
    decide
  rw [decodeLiteral,if_neg hne,quoteLiteral_eq,literalBody_quoteWith,
    decodeSingle_enclosed (enclosed_escapeSingle t),decodeEscapes_escapeSingle]

theorem fits_quoteLiteral (t : Text) : Fits .string (quoteLiteral t).runes :=
  fits_quoteWith (by decide) (enclosed_escapeSingle t)

/-- A literal in single quotes stands for its body decoded in one pass. The literal of a text, with its
quotes and backslashes escaped, is one lexeme, alone and in front of anything, and stands for that
text. -/
theorem single_quoted :
    (∀ t w, stringLexeme? t = some w → w.head? = some (Text.ascii '\'') →
        decodeLiteral w = decodeEscapes (literalBody w)) ∧
      ∀ t, lex? (quoteLiteral t) = some [⟨.string,quoteLiteral t,{}⟩] ∧
        (∀ rest, stringLexeme? (quoteLiteral t ++ rest) = some (quoteLiteral t)) ∧
        decodeLiteral (quoteLiteral t) = t := by
  refine ⟨fun t w hw hhead => ?_,fun t => ⟨?_,fun rest => ?_,decodeLiteral_quoteLiteral t⟩⟩
  · obtain ⟨q,body,rest,-,rfl,-,hb⟩ := stringLexeme?_eq_some_iff.mp hw
    obtain rfl : q = Text.ascii '\'' := Option.some.inj hhead
    have hdouble : ¬ (quoteWith (Text.ascii '\'') body).head? = some (Text.ascii '"') := by
      rw [hhead]
      decide
    rw [decodeLiteral,if_neg hdouble,literalBody_quoteWith]
    exact decodeSingle_enclosed hb
  · have hfits : Shape.Fits ⟨.string,quoteLiteral t⟩ := fits_quoteLiteral t
    have hlex := lexFrom_lexeme hfits (t := []) (by simp) (by simp) {}
    rw [List.append_nil] at hlex
    exact hlex
  · rw [quoteLiteral_eq]
    exact stringLexeme?_quoteWith (by decide) (enclosed_escapeSingle t) rest

/-- Of backslashes in front of a letter, a quote and the end the pairs count from the left. -/
theorem single_quoted_runs :
    let lexeme : Text := "'\\n\\\\\\'\\\\'"
    stringLexeme? (lexeme ++ " + 1") = some lexeme ∧ lexeme.head? = some (Text.ascii '\'') ∧
      decodeLiteral lexeme = "\\n\\'\\" := by
  intro lexeme
  have hlexeme : stringLexeme? (lexeme ++ " + 1") = some lexeme := by decide +kernel
  have hhead : lexeme.head? = some (Text.ascii '\'') := by decide
  refine ⟨hlexeme,hhead,?_⟩
  rw [single_quoted.1 _ lexeme hlexeme hhead]
  decide

end CellScript.Script
