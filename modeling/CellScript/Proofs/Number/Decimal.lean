import Mathlib
import CellScript.Number.Decimal
import CellScript.Proofs.Text.Runes

/-! Decimal digits and the numbers they stand for. A word is read from its own digits, with its sign. -/
namespace CellScript

namespace Text

/-- A text of digits only, at least one of them. -/
def IsDecimal (t : Text) : Prop := t ≠ [] ∧ ∀ b ∈ t, isDigit b = true

/-- The number that digits stand for, after a number in front of them. -/
def decimalFrom (soFar : ℕ) (t : Text) : ℕ := t.foldl (fun n b => n*10 + (b.toNat - 48)) soFar

/-- The number that digits stand for. -/
def decimal (t : Text) : ℕ := decimalFrom 0 t

lemma isDigit_iff {b : UInt8} : isDigit b = true ↔ 48 ≤ b.toNat ∧ b.toNat ≤ 57 := by
  simp only [isDigit,Bool.and_eq_true,decide_eq_true_eq,UInt8.le_iff_toNat_le]
  exact Iff.rfl

lemma decimalFrom_append (n : ℕ) (a b : Text) :
    decimalFrom n (a ++ b) = decimalFrom (decimalFrom n a) b := by
  simp [decimalFrom]

lemma le_decimalFrom (n : ℕ) (t : Text) : n ≤ decimalFrom n t := by
  induction t generalizing n with
  | nil => exact le_rfl
  | cons b t ih =>
    have h := ih (n*10 + (b.toNat - 48))
    change n ≤ decimalFrom (n*10 + (b.toNat - 48)) t
    omega

lemma ofNat_eq (n : ℕ) :
    ofNat n = (if n < 10 then [] else ofNat (n/10)) ++ [UInt8.ofNat (48 + n%10)] := by
  have hdigit : ∀ d < 10, (Nat.digitChar d).toUInt8 = UInt8.ofNat (48 + d) := by decide
  unfold ofNat
  rw [Nat.toDigits_eq_if (by omega)]
  split
  · next h => simp [hdigit n h,Nat.mod_eq_of_lt h]
  · simp [hdigit (n%10) (Nat.mod_lt _ (by omega))]

lemma isDecimal_ofNat (n : ℕ) : IsDecimal (ofNat n) := by
  induction n using Nat.strong_induction_on with
  | _ n ih =>
    refine ⟨by rw [ofNat_eq]; simp,?_⟩
    intro b hb
    rw [ofNat_eq,List.mem_append,List.mem_singleton] at hb
    rcases hb with hb | rfl
    · split at hb
      · simp at hb
      · exact (ih (n/10) (by omega)).2 b hb
    · rw [isDigit_iff,UInt8.toNat_ofNat']
      omega

@[simp] lemma decimal_ofNat (n : ℕ) : decimal (ofNat n) = n := by
  induction n using Nat.strong_induction_on with
  | _ n ih =>
    rw [decimal,ofNat_eq,decimalFrom_append]
    have hone : ∀ m : ℕ, decimalFrom m [UInt8.ofNat (48 + n%10)] = m*10 + n%10 := by
      intro m
      simp only [decimalFrom,List.foldl_cons,List.foldl_nil,UInt8.toNat_ofNat']
      omega
    rw [hone]
    split
    · simp only [decimalFrom,List.foldl_nil]
      omega
    · have h := ih (n/10) (by omega)
      rw [decimal] at h
      rw [h]
      omega

lemma ofInt_eq (i : ℤ) : ofInt i = if i < 0 then ascii '-'::ofNat i.natAbs else ofNat i.natAbs := by
  cases i with
  | ofNat n => rw [if_neg (by simp)]; rfl
  | negSucc n => rw [if_pos (Int.negSucc_lt_zero n)]; rfl

lemma mem_ofInt {i : ℤ} {b : UInt8} (h : b ∈ ofInt i) : b = ascii '-' ∨ isDigit b = true := by
  rw [ofInt_eq] at h
  split at h
  · exact (List.mem_cons.mp h).imp id ((isDecimal_ofNat _).2 b)
  · exact Or.inr ((isDecimal_ofNat _).2 b h)

end Text

namespace Number

lemma readDigits_eq {n : ℕ} {t : Text} (ht : ∀ b ∈ t, Text.isDigit b = true)
    (h : Text.decimalFrom n t < 2^64) : readDigits n t = .ok (Text.decimalFrom n t) := by
  induction t generalizing n with
  | nil => rfl
  | cons b t ih =>
    have hstep : Text.decimalFrom n (b::t) = Text.decimalFrom (n*10 + (b.toNat - 48)) t := rfl
    rw [hstep] at h ⊢
    have hle := Text.le_decimalFrom (n*10 + (b.toNat - 48)) t
    have hlt : n*10 + (b.toNat - 48) < 18446744073709551616 := by omega
    simp only [readDigits,ht b (by simp),if_true,hlt]
    exact ih (fun c hc => ht c (by simp [hc])) h

lemma bounded_eq {i : ℤ} (h : minWord ≤ i) (h' : i ≤ maxWord) : bounded i = .ok (Int64.ofInt i) := by
  rw [bounded,if_pos ⟨h,h'⟩]

lemma readNat_of_isDecimal {t : Text} (ht : Text.IsDecimal t) (h : Text.decimal t < 2^64) :
    readNat t = .ok (Text.decimal t) := by
  obtain ⟨hne,hd⟩ := ht
  rw [readNat,if_neg (by simpa using hne)]
  exact readDigits_eq hd h

/-- Digits are read as the number they stand for when it fits a word. -/
theorem readInt_of_isDecimal {t : Text} (ht : Text.IsDecimal t) (h : Text.decimal t < 2^63) :
    readInt t = .ok (Int64.ofInt (Text.decimal t)) := by
  have hr := readNat_of_isDecimal ht (lt_trans h (by norm_num))
  obtain ⟨hne,hd⟩ := ht
  obtain ⟨b,t,rfl⟩ := List.exists_cons_of_ne_nil hne
  have hb := Text.isDigit_iff.mp (hd b (by simp))
  have hminus : (b == Text.ascii '-') = false := by
    rw [beq_eq_false_iff_ne]
    rintro rfl
    revert hb
    decide
  have hplus : (b == Text.ascii '+') = false := by
    rw [beq_eq_false_iff_ne]
    rintro rfl
    revert hb
    decide
  simp only [readInt,hminus,hplus,hr]
  refine bounded_eq ?_ ?_
  · unfold minWord
    omega
  · unfold maxWord
    omega

/-- A word is read from its decimal form. -/
theorem readInt_ofInt (n : Int64) : readInt (Text.ofInt n.toInt) = .ok n := by
  have hlow := n.le_toInt
  have hhigh := n.toInt_lt
  rw [Text.ofInt_eq]
  split
  · next hneg =>
    -- the digits of the least word stand for a number that is no word without the sign
    have hdigits : readNat (Text.ofNat n.toInt.natAbs) = .ok n.toInt.natAbs := by
      simpa using readNat_of_isDecimal (Text.isDecimal_ofNat _) (by rw [Text.decimal_ofNat]; omega)
    have hvalue : -(n.toInt.natAbs : ℤ) = n.toInt := by omega
    have hword : bounded n.toInt = .ok n := by
      rw [bounded_eq hlow (Int.le_of_lt_add_one hhigh),Int64.ofInt_toInt]
    simp only [readInt,hdigits]
    rw [← hvalue] at hword
    exact hword
  · next hpos =>
    have hvalue : (n.toInt.natAbs : ℤ) = n.toInt := by omega
    rw [readInt_of_isDecimal (Text.isDecimal_ofNat _) (by rw [Text.decimal_ofNat]; omega),
      Text.decimal_ofNat,hvalue,Int64.ofInt_toInt]

end Number
end CellScript
