import Mathlib
import CellScript.Proofs.Script.Enclosed
import CellScript.Shorthand.Token

/-! Where literals end. A scan of shorthand goes byte by byte and lexing a script goes rune by rune,
and they stop at the same quote. Only a line feed that is escaped keeps a lexeme from ending there. -/
namespace CellScript.Shorthand

open Script (Enclosed ne_slash_of_isQuote quoteWith quoteWith_inj stringLexeme?
  stringLexeme?_eq_some_iff)

/-- What stands between a quote and the one that closes it, whatever is escaped. -/
def Closed (q : UInt8) (body : Text) : Prop :=
  Enclosed (Text.ascii '\\') q (fun _ => True) body

/-- The place behind the literal that a quote opens at a place. -/
def literalEnd (src : Text) (p : ℕ) : ℕ :=
  match src.drop p with
  | [] => p
  | q::rest => p+1+literalRest q rest

lemma literalRest_le (q : UInt8) (t : Text) : literalRest q t ≤ t.length := by
  fun_induction literalRest q t with
  | case1 => simp
  | case2 b hb => simp
  | case3 b hb c rest ih =>
    simp only [List.length_cons]
    omega
  | case4 b rest hb hq => simp
  | case5 b rest hb hq ih => simpa using ih

/-- A literal ends with the quote that closes it. -/
lemma literalRest_closed {q : UInt8} (hq : q ≠ Text.ascii '\\') {body : Text} (h : Closed q body)
    (rest : Text) : literalRest q (body ++ q::rest) = body.length+1 := by
  induction h with
  | nil => simp [literalRest.eq_def q (q::_),hq]
  | @plain b t hs hne _ ih => simp [literalRest.eq_def q (b::_),hs,hne,ih]
  | @escape b t _ _ ih => simp [literalRest,ih]

/-- A literal that no quote closes goes to the end. -/
lemma literalRest_open {q : UInt8} {t : Text}
    (h : ∀ body rest, t = body ++ q::rest → ¬ Closed q body) : literalRest q t = t.length := by
  fun_induction literalRest q t with
  | case1 => rfl
  | case2 b hb => rfl
  | case3 b hb c rest ih =>
    have hb : b = Text.ascii '\\' := by simpa using hb
    subst hb
    rw [ih fun body more heq hbody => ?_]
    · rfl
    · exact h (_::c::body) more (by rw [heq]; rfl) (.escape trivial hbody)
  | case4 b rest hb hq =>
    have hq : b = q := by simpa using hq
    subst hq
    exact absurd .nil (h [] rest rfl)
  | case5 b rest hb hq ih =>
    have hb : b ≠ Text.ascii '\\' := by simpa using hb
    have hq : b ≠ q := by simpa using hq
    rw [ih fun body more heq hbody => ?_]
    · rfl
    · exact h (b::body) more (by rw [heq]; rfl) (.plain hb hq hbody)

lemma literalEnd_eq {src : Text} {p : ℕ} {q : UInt8} {rest : Text} (h : src.drop p = q::rest) :
    literalEnd src p = p+1+literalRest q rest := by
  rw [literalEnd,h]

/-- A literal at a place ends with its closing quote. -/
lemma literalEnd_closed {src : Text} {p : ℕ} {q : UInt8} (hq : Text.isQuote q = true)
    {body rest : Text} (hsrc : src.drop p = quoteWith q body ++ rest) (h : Closed q body) :
    literalEnd src p = p+(quoteWith q body).length := by
  have hrest : src.drop p = q::(body ++ q::rest) := by
    rw [hsrc]
    simp [quoteWith]
  rw [literalEnd_eq hrest,literalRest_closed (ne_slash_of_isQuote hq) h]
  simp [quoteWith]
  omega

/-- A scan and a lexer agree on the literal that a quote opens. A lexeme ends where the scan stops.
Where the scan stops at a closing quote, the lexeme ends too, unless a backslash escapes a line feed.
Without a closing quote the scan goes to the end of the source, and it never goes further. -/
theorem literal_ends_alike {src : Text} {p : ℕ} {q : UInt8} (hp : src[p]? = some q)
    (hq : Text.isQuote q = true) :
    (∀ w, stringLexeme? (src.drop p) = some w →
        w <+: src.drop p ∧ literalEnd src p = p+w.length) ∧
      (∀ body rest, src.drop p = quoteWith q body ++ rest → Closed q body →
        literalEnd src p = p+(quoteWith q body).length ∧
          (stringLexeme? (src.drop p) = some (quoteWith q body) ↔
            ∀ u v, body = u ++ Text.ascii '\\'::Text.ascii '\n'::v → ¬ Closed q u)) ∧
      ((∀ body rest, src.drop p = quoteWith q body ++ rest → ¬ Closed q body) →
        literalEnd src p = src.length) ∧
      literalEnd src p ≤ src.length := by
  obtain ⟨hlt,hget⟩ := List.getElem?_eq_some_iff.mp hp
  have hdrop : src.drop p = q::src.drop (p+1) := by rw [List.drop_eq_getElem_cons hlt,hget]
  refine ⟨fun w hw => ?_,fun body rest hsrc hbody => ⟨literalEnd_closed hq hsrc hbody,?_⟩,
    fun hopen => ?_,?_⟩
  · obtain ⟨c,body,rest,hc,rfl,hsrc,hb⟩ := stringLexeme?_eq_some_iff.mp hw
    exact ⟨⟨rest,hsrc.symm⟩,literalEnd_closed hc hsrc (Enclosed.escapes_iff.mp hb).1⟩
  · constructor
    · intro hw u v heq hu
      obtain ⟨c,inner,-,-,hquotes,-,hinner⟩ := stringLexeme?_eq_some_iff.mp hw
      obtain ⟨rfl,rfl⟩ := quoteWith_inj.mp hquotes
      exact (Enclosed.escapes_iff.mp hinner).2 u _ v heq hu rfl
    · intro hbreak
      refine stringLexeme?_eq_some_iff.mpr ⟨q,body,rest,hq,rfl,hsrc,?_⟩
      refine Enclosed.escapes_iff.mpr ⟨hbody,fun u a v heq hu ha => ?_⟩
      rw [ha] at heq
      exact hbreak u v heq hu
  · rw [literalEnd_eq hdrop,literalRest_open fun body rest heq => ?_,List.length_drop]
    · omega
    · refine hopen body rest ?_
      rw [hdrop,heq]
      simp [quoteWith]
  · have hle := literalRest_le q (src.drop (p+1))
    rw [List.length_drop] at hle
    rw [literalEnd_eq hdrop]
    omega

theorem literal_ends_alike_escaped :
    let src : Text := "f(\"é\\\"s[0]\") + 1"
    let lexeme : Text := "\"é\\\"s[0]\""
    src[2]? = some (Text.ascii '"') ∧ Text.isQuote (Text.ascii '"') = true ∧
      stringLexeme? (src.drop 2) = some lexeme ∧ lexeme <+: src.drop 2 ∧
      literalEnd src 2 = 2+lexeme.length := by
  intro src lexeme
  have hp : src[2]? = some (Text.ascii '"') := by decide +kernel
  have hq : Text.isQuote (Text.ascii '"') = true := by decide
  have hlexeme : stringLexeme? (src.drop 2) = some lexeme := by decide +kernel
  exact ⟨hp,hq,hlexeme,(literal_ends_alike hp hq).1 lexeme hlexeme⟩

/-- An escaped line feed: the scan goes on to the closing quote, and there is no lexeme. -/
example : literalEnd "'a\\\nb'" 0 = 6 ∧ stringLexeme? "'a\\\nb'" = none := by decide +kernel

end CellScript.Shorthand
