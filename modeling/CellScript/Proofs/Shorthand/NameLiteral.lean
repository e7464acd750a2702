import Mathlib
import CellScript.Proofs.Script.Escape
import CellScript.Proofs.Shorthand.Assignment

/-! The literals that names become. A name is put between quotes as it is, and what stands between
quotes is read with its escapes: a backslash in a name may make another name of it, or no literal at
all. -/
namespace CellScript.Shorthand

open Script (Formula KeySpelled Program Shape complete decodeLiteral quoteWith)

/-- What a quoted name is read as in front of its bracket: one lexeme, a literal with this text. -/
structure Denotes (n m : Text) : Prop where
  shapes : Script.shapes? (autoQuote n ++ Text.ofString "]") =
    some [⟨.string,autoQuote n⟩,⟨.punctuation,Text.ofString "]"⟩]
  value : ∀ pos, Script.Parser.literal? ⟨.string,autoQuote n,pos⟩ = some (.string m)

section Names

variable {n : Text} (hq : Text.ascii '"' ∉ n) (hp : isPositional n = false)

include hp

lemma literal?_autoQuote (pos : Text.Position) :
    Script.Parser.literal? ⟨.string,autoQuote n,pos⟩ =
      some (.string (decodeLiteral (quoteWith (Text.ascii '"') n))) := by
  rw [autoQuote_of_name hp]
  rfl

include hq

lemma shapes?_autoQuote : Script.shapes? (autoQuote n ++ Text.ofString "]") =
    if complete n.runes then some [⟨.string,autoQuote n⟩,⟨.punctuation,Text.ofString "]"⟩]
    else none := by
  rw [autoQuote_of_name hp]
  exact Script.shapes?_quoteWith hq

/-- A quoted name denotes what its literal stands for, if it has no backslash without a rune to
escape. -/
lemma denotes_iff {m : Text} : Denotes n m ↔
    complete n.runes = true ∧ decodeLiteral (quoteWith (Text.ascii '"') n) = m := by
  constructor
  · rintro ⟨hshapes,hvalue⟩
    rw [shapes?_autoQuote hq hp,Option.ite_none_right_eq_some] at hshapes
    have hm := hvalue {}
    rw [literal?_autoQuote hp,Option.some.injEq,Script.Expr.string.injEq] at hm
    exact ⟨hshapes.1,hm⟩
  · rintro ⟨hcomplete,rfl⟩
    refine ⟨?_,literal?_autoQuote hp⟩
    rw [shapes?_autoQuote hq hp,if_pos hcomplete]

/-- A quoted name is a key, by the name that it denotes. -/
lemma Denotes.spelled {m : Text} (h : Denotes n m) :
    KeySpelled (autoQuote n) (.name m) (.string m) [⟨.string,autoQuote n⟩] := by
  have hcomplete := ((denotes_iff hq hp).mp h).1
  have hfits : Shape.Fits ⟨.string,autoQuote n⟩ := by
    rw [autoQuote_of_name hp]
    exact Script.fits_of_complete hq hcomplete
  refine Script.keySpelled_literal hfits (Or.inr rfl) ?_ (fun _ => rfl)
  rintro ⟨kind,text,pos⟩ hl
  obtain ⟨rfl,rfl⟩ := Shape.mk.inj hl
  exact h.value pos

/-- Another name is what all of the escapes are decoded to. -/
lemma Denotes.shorter {m : Text} (h : Denotes n m) (hu : n.isUtf8 = true) (hne : m ≠ n) :
    Text.unescape? (Text.ascii '"') n = some m ∧ m.length < n.length := by
  have hvalue := ((denotes_iff hq hp).mp h).2
  rw [Script.decodeLiteral_double] at hvalue
  cases hescapes : Text.unescape? (Text.ascii '"') n with
  | none =>
    rw [hescapes,Option.getD_none] at hvalue
    exact absurd hvalue.symm hne
  | some x =>
    rw [hescapes,Option.getD_some] at hvalue
    subst hvalue
    have hslash : Text.ascii '\\' ∈ n := by
      by_contra hno
      exact hne (Script.unescapeSteps?_plain hu hno hescapes)
    exact ⟨rfl,(Script.length_unescapeSteps? (by decide) hu hescapes).2 hslash⟩

/-- Scripts read the cell of a quoted name by the name that it denotes. -/
lemma Denotes.read {m : Text} (h : Denotes n m) (cast : Cast) :
    ∃ f, Formula.compile (Field.read ⟨cast,autoQuote n⟩) = .ok f ∧
      ∀ l row, f.value l row = Script.ofRow (cast.rowView.get l row (.name m)) := by
  have hkey := h.spelled hq hp
  have hcell := Formula.compile_keyed hkey (Assignment.isName_view cast)
  rw [← Field.read_eq ⟨cast,autoQuote n⟩] at hcell
  refine ⟨_,hcell,fun l row => ?_⟩
  simp only [Formula.value,Script.eval,Assignment.viewOf_viewName,hkey.value,bind,Except.bind]

/-- Scripts store in the cell of a quoted name by the name that it denotes. -/
lemma Denotes.store {m : Text} (h : Denotes n m) (cast : Cast) {code : Text} {f : Formula}
    (hf : Formula.compile code = .ok f) : ∃ p e, Program.compile
        (Field.target ⟨cast,autoQuote n⟩ ++ (Text.ofString " = " ++ code)) = .ok p ∧
      p.statements = [.store none (some (.string m)) e] ∧ f.expr.SameTree e := by
  rw [Field.target_eq]
  exact Program.compile_store (h.spelled hq hp) hf

end Names

/-- A quoted name denotes itself exactly when each of its backslashes has something to escape, and
not all of its escapes are known if there are any. Without something to escape it is no lexeme.
Otherwise it denotes a name, its own or one that is shorter, and by this name scripts read the cell
and store in it. -/
theorem autoQuote_denotes {n : Text} (hu : n.isUtf8 = true) (hq : Text.ascii '"' ∉ n)
    (hp : isPositional n = false) :
    (Denotes n n ↔ complete n.runes = true ∧
      (Text.ascii '\\' ∈ n → Text.unescape? (Text.ascii '"') n = none)) ∧
    (complete n.runes = false → Script.shapes? (autoQuote n ++ Text.ofString "]") = none) ∧
    (complete n.runes = true → ∃ m, Denotes n m) ∧
    ∀ m, Denotes n m →
      (m ≠ n → Text.unescape? (Text.ascii '"') n = some m ∧ m.length < n.length) ∧
      ∀ cast : Cast,
        (∃ f, Formula.compile (Field.read ⟨cast,autoQuote n⟩) = .ok f ∧
          ∀ l row, f.value l row = Script.ofRow (cast.rowView.get l row (.name m))) ∧
        ∀ code f, Formula.compile code = .ok f →
          ∃ p e, Program.compile
              (Field.target ⟨cast,autoQuote n⟩ ++ (Text.ofString " = " ++ code)) = .ok p ∧
            p.statements = [.store none (some (.string m)) e] ∧ f.expr.SameTree e := by
  refine ⟨?_,?_,?_,?_⟩
  · rw [denotes_iff hq hp,Script.decodeLiteral_double_eq_iff hu]
  · intro hopen
    rw [shapes?_autoQuote hq hp,hopen]
    rfl
  · exact fun hcomplete => ⟨_,(denotes_iff hq hp).mpr ⟨hcomplete,rfl⟩⟩
  · intro m hm
    exact ⟨hm.shorter hq hp hu,fun cast => ⟨hm.read hq hp cast,fun _ _ => hm.store hq hp cast⟩⟩

/-- A name with an escape that is not known stays as it is. -/
theorem autoQuote_denotes_path :
    let n := Text.ofString "C:\\dir"
    n.isUtf8 = true ∧ Text.ascii '"' ∉ n ∧ isPositional n = false ∧ Text.ascii '\\' ∈ n ∧
      Denotes n n ∧ ∃ f, Formula.compile (Field.read ⟨.toText,autoQuote n⟩) = .ok f ∧
        ∀ l row, f.value l row = Script.ofRow (View.text.get l row (.name n)) := by
  intro n
  have hu : n.isUtf8 = true := by decide +kernel
  have hq : Text.ascii '"' ∉ n := by decide +kernel
  have hp : isPositional n = false := by decide +kernel
  obtain ⟨hself,-,-,hkeys⟩ := autoQuote_denotes hu hq hp
  have hn : Denotes n n := hself.mpr ⟨by decide +kernel,fun _ => by decide +kernel⟩
  exact ⟨hu,hq,hp,by decide +kernel,hn,((hkeys n hn).2 .toText).1⟩

/-- A backslash in front of a letter may make another name, and one at the end makes no literal. -/
theorem autoQuote_escapes :
    let tabbed := Text.ofString "a\\tb"
    let ended := Text.ofString "a\\"
    (∀ n ∈ [tabbed,ended], n.isUtf8 = true ∧ (∀ b ∈ n, Text.isQuote b = false) ∧
      Text.ascii ']' ∉ n ∧ isPositional n = false) ∧
    Denotes tabbed (Text.ofString "a\tb") ∧ ¬ Denotes tabbed tabbed ∧
    Script.shapes? (autoQuote ended ++ Text.ofString "]") = none := by
  intro tabbed ended
  have hq : Text.ascii '"' ∉ tabbed := by decide +kernel
  have hp : isPositional tabbed = false := by decide +kernel
  refine ⟨by decide +kernel,?_,?_,?_⟩
  · exact (denotes_iff hq hp).mpr ⟨by decide +kernel,by decide +kernel⟩
  · rw [denotes_iff hq hp]
    exact fun h => absurd h.2 (by decide +kernel)
  · rw [shapes?_autoQuote (by decide +kernel) (by decide +kernel),
      if_neg (by decide +kernel)]

end CellScript.Shorthand
