import Mathlib
import CellScript.Proofs.Number.Decimal
import CellScript.Proofs.Script.SingleQuoted

/-! Literals of numbers and names. Digits are one lexeme, and so is a name between quotes, which is
read back as it was. -/
namespace CellScript.Script

theorem fits_of_isDecimal {t : Text} (ht : Text.IsDecimal t) : Fits .int t.runes := by
  obtain ⟨hne,hd⟩ := ht
  refine ⟨?_,?_⟩
  · obtain ⟨b,t,rfl⟩ := List.exists_cons_of_ne_nil hne
    rw [Text.runes_cons]
    simp
  · clear hne
    induction t with
    | nil => simp [Digits]
    | cons b t ih =>
      have hb := Text.isDigit_iff.mp (hd b (by simp))
      rw [Text.runes_cons_of_lt (by omega)]
      intro r hr
      rcases List.mem_cons.mp hr with rfl | hr
      · rw [isDigit_iff,Rune.toNat_ofNat (by omega)]
        exact hb
      · exact ih (fun c hc => hd c (by simp [hc])) r hr

/-- A name that can stand between quotes and brackets as it is. -/
structure PlainName (n : Text) : Prop where
  utf8 : n.isUtf8 = true
  quote : ∀ b ∈ n, Text.isQuote b = false
  slash : Text.ascii '\\' ∉ n
  bracket : Text.ascii ']' ∉ n

/-- A body without backslashes stands for itself. -/
lemma unescapeSteps?_plain {q : UInt8} {fuel : ℕ} {n r : Text} (hu : n.isUtf8 = true)
    (hs : Text.ascii '\\' ∉ n) (h : Text.unescapeSteps? q fuel n = some r) : r = n := by
  induction fuel generalizing n r with
  | zero =>
    cases n with
    | nil => simpa [Text.unescapeSteps?] using h.symm
    | cons b n => simp [Text.unescapeSteps?] at h
  | succ fuel ih =>
    cases n with
    | nil => simpa [Text.unescapeSteps?] using h.symm
    | cons b n =>
      obtain ⟨more,hm,hr⟩ := Text.runes_cons_exists b n
      have hb : ¬ (b == Text.ascii '\\') = true := by
        simp only [List.mem_cons,not_or] at hs
        simpa using Ne.symm hs.1
      rw [Text.isUtf8,hr,List.all_cons,Bool.and_eq_true] at hu
      simp only [Text.unescapeSteps?] at h
      rw [if_neg hb] at h
      split at h
      · simp at h
      · rw [Option.map_eq_some_iff] at h
        obtain ⟨r',hr',rfl⟩ := h
        have hdrop : (b::n).drop (Rune.first b n).bytes.length = more := by
          rw [hm]
          simp
        rw [hdrop] at hr'
        have hmore : Text.ascii '\\' ∉ more := by
          intro hmem
          apply hs
          rw [hm]
          exact List.mem_append_right _ hmem
        rw [ih hu.2 hmore hr',hm]
        congr 1
        cases hf : Rune.first b n with
        | char c => rfl
        | stray x => simp [hf] at hu

lemma replace_of_not_mem {o : UInt8} {old new t : Text} (h : o ∉ t) :
    Text.replace (o::old) new t = t := by
  induction t with
  | nil => rfl
  | cons b t ih =>
    simp only [List.mem_cons,not_or] at h
    rw [replace_cons_of_ne (Ne.symm h.1),ih h.2]

/-- A name in quotes stands for the name. -/
theorem decodeLiteral_quoteWith (q : UInt8) {n : Text}
    (hu : n.isUtf8 = true) (hs : Text.ascii '\\' ∉ n) : decodeLiteral (quoteWith q n) = n := by
  rw [decodeLiteral,literalBody_quoteWith]
  split
  · rw [decodeDouble,Text.unescape?]
    cases h : Text.unescapeSteps? (Text.ascii '"') n.length n with
    | none => rfl
    | some r => exact unescapeSteps?_plain hu hs h
  · have hold : Text.ofString "\\'" = [Text.ascii '\\',Text.ascii '\''] := by decide
    have hold' : Text.ofString "\\\\" = [Text.ascii '\\',Text.ascii '\\'] := by decide
    rw [decodeSingle,hold,hold',replace_of_not_mem hs,replace_of_not_mem hs]

theorem fits_quoteWith_plain {q : UInt8} (hq : Text.isQuote q = true) {n : Text}
    (hn : ∀ b ∈ n, Text.isQuote b = false) (hs : Text.ascii '\\' ∉ n) :
    Fits .string (quoteWith q n).runes := by
  refine fits_quoteWith hq ?_
  rw [← List.append_nil n,Enclosed.append_plain_iff]
  · exact .nil
  · intro b hb
    refine ⟨fun h => hs (h ▸ hb),?_⟩
    rintro rfl
    rw [hn b hb] at hq
    exact Bool.false_ne_true hq

end CellScript.Script
