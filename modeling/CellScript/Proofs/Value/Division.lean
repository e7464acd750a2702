import Mathlib
import CellScript.Value.Operator

/-! Arithmetic on words. Sums, differences and products are the exact ones as far as 64 bits go, and
division rounds down: the quotient of the machine, which drops the fraction, is corrected together with
its remainder, and neither correction leaves the range of words. -/
namespace CellScript.Value

/-- A quotient and the remainder that lies between zero and the divisor. -/
structure RoundsDown (a b q r : ℤ) : Prop where
  sum : q*b + r = a
  between : (0 ≤ r ∧ r < b) ∨ (b < r ∧ r ≤ 0)

lemma RoundsDown.floor {a b q r : ℤ} (h : RoundsDown a b q r) : ⌊(a : ℚ)/b⌋ = q := by
  have hsum : (a : ℚ) = q*b + r := by exact_mod_cast h.sum.symm
  rw [Int.floor_eq_iff]
  rcases h.between with ⟨hlow,hhigh⟩ | ⟨hlow,hhigh⟩
  · have hb : (0 : ℚ) < b := by exact_mod_cast lt_of_le_of_lt hlow hhigh
    have hr : (0 : ℚ) ≤ r := by exact_mod_cast hlow
    have hrb : (r : ℚ) < b := by exact_mod_cast hhigh
    rw [le_div_iff₀ hb,div_lt_iff₀ hb,hsum,add_mul,one_mul]
    exact ⟨by linarith,by linarith⟩
  · have hb : (b : ℚ) < 0 := by exact_mod_cast lt_of_lt_of_le hlow hhigh
    have hr : (r : ℚ) ≤ 0 := by exact_mod_cast hhigh
    have hbr : (b : ℚ) < r := by exact_mod_cast hlow
    rw [le_div_iff_of_neg hb,div_lt_iff_of_neg hb,hsum,add_mul,one_mul]
    exact ⟨by linarith,by linarith⟩

lemma RoundsDown.remainder {a b q r : ℤ} (h : RoundsDown a b q r) :
    r = a - b*⌊(a : ℚ)/b⌋ := by
  rw [h.floor,← h.sum]
  ring

lemma RoundsDown.small {a b q r : ℤ} (h : RoundsDown a b q r) : |r| < |b| := by
  rcases h.between with ⟨hlow,hhigh⟩ | ⟨hlow,hhigh⟩
  · rwa [abs_of_nonneg hlow,abs_of_nonneg (hlow.trans hhigh.le)]
  · rw [abs_of_nonpos hhigh,abs_of_nonpos (hlow.le.trans hhigh)]
    omega

lemma RoundsDown.sign {a b q r : ℤ} (h : RoundsDown a b q r) : r = 0 ∨ (r < 0 ↔ b < 0) := by
  rcases h.between with h | h <;> omega

/-- What is known of the remainder when the fraction is dropped: it has the sign of the number that is
divided. -/
lemma tmod_between {a b : ℤ} (hb : b ≠ 0) :
    -|b| < a.tmod b ∧ a.tmod b < |b| ∧ (0 ≤ a → 0 ≤ a.tmod b) ∧ (a ≤ 0 → a.tmod b ≤ 0) := by
  have hlt : |a.tmod b| < |b| := by
    rw [Int.abs_eq_natAbs,Int.abs_eq_natAbs,Int.natAbs_tmod]
    exact_mod_cast Nat.mod_lt _ (Int.natAbs_pos.mpr hb)
  refine ⟨(abs_lt.mp hlt).1,(abs_lt.mp hlt).2,fun ha => Int.tmod_nonneg b ha,fun ha => ?_⟩
  have hneg := Int.tmod_nonneg b (neg_nonneg.mpr ha)
  rw [Int.neg_tmod] at hneg
  omega

/-- Both corrections are made in the same cases, though one looks at the sign of what is divided and the
other at the sign of the remainder. -/
lemma roundsDown_corrected {a b : ℤ} (hb : b ≠ 0) :
    RoundsDown a b
      (if a.tmod b ≠ 0 ∧ ¬(a < 0 ↔ b < 0) then a.tdiv b - 1 else a.tdiv b)
      (if a.tmod b ≠ 0 ∧ ¬(a.tmod b < 0 ↔ b < 0) then a.tmod b + b else a.tmod b) := by
  obtain ⟨hlow,hhigh,hpos,hneg⟩ := tmod_between (a := a) hb
  have hsum := Int.mul_tdiv_add_tmod a b
  rw [mul_comm] at hsum
  have hcases : |b| = b ∧ 0 < b ∨ |b| = -b ∧ b < 0 := by
    rcases lt_or_gt_of_ne hb with h | h
    · exact Or.inr ⟨abs_of_neg h,h⟩
    · exact Or.inl ⟨abs_of_pos h,h⟩
  have hcorrect : (a.tmod b ≠ 0 ∧ ¬(a < 0 ↔ b < 0)) ↔ a.tmod b ≠ 0 ∧ ¬(a.tmod b < 0 ↔ b < 0) := by
    omega
  by_cases h : a.tmod b ≠ 0 ∧ ¬(a.tmod b < 0 ↔ b < 0)
  · rw [if_pos (hcorrect.mpr h),if_pos h]
    exact ⟨by linarith,by omega⟩
  · rw [if_neg (mt hcorrect.mp h),if_neg h]
    exact ⟨hsum,by omega⟩

lemma toInt_eq_zero_iff {a : Int64} : a.toInt = 0 ↔ a = 0 := by
  rw [← Int64.toInt_zero,Int64.toInt_inj]

lemma toInt_lt_zero_iff {a : Int64} : a.toInt < 0 ↔ a < 0 := by
  rw [← Int64.toInt_zero,Int64.lt_iff_toInt_lt]

/-- A whole number in the range of words is the value of its word. -/
lemma bmod_of_range {n : ℤ} (hlow : -2^63 ≤ n) (hhigh : n < 2^63) : n.bmod (2^64) = n :=
  Int.bmod_eq_of_le (by norm_num at *; omega) (by norm_num at *; omega)

/-- The one quotient of words that is no word. -/
def Wraps (a b : Int64) : Prop := a = Int64.minValue ∧ b = -1

lemma toInt_div_of_not_wraps {a b : Int64} (h : ¬Wraps a b) : (a/b).toInt = a.toInt.tdiv b.toInt := by
  rcases not_and_or.mp h with ha | hb
  · exact Int64.toInt_div_of_ne_left a b ha
  · exact Int64.toInt_div_of_ne_right a b hb

lemma mod_ne_zero_iff {a b : Int64} : a % b ≠ 0 ↔ a.toInt.tmod b.toInt ≠ 0 := by
  rw [← Int64.toInt_mod,ne_eq,ne_eq,toInt_eq_zero_iff]

lemma floorDiv_eq (a b : Int64) :
    floorDiv a b = if a % b ≠ 0 ∧ ¬(a < 0 ↔ b < 0) then a/b - 1 else a/b := by
  simp [floorDiv,decide_eq_decide]

lemma floorMod_eq (a b : Int64) :
    floorMod a b = if a % b ≠ 0 ∧ ¬(a % b < 0 ↔ b < 0) then a % b + b else a % b := by
  simp [floorMod,decide_eq_decide]

/-- The quotient can be lowered. It is at most half as large as what was divided, since a divisor that
leaves a remainder is neither one nor minus one. -/
lemma toInt_lowered {a b : Int64} (hb : b ≠ 0) (h : a % b ≠ 0) :
    (a/b - 1).toInt = (a/b).toInt - 1 := by
  have hmod := mod_ne_zero_iff.mp h
  have hrem := Int.natAbs_tmod a.toInt b.toInt
  have htwo : 2 ≤ b.toInt.natAbs := by
    have hzero := mt toInt_eq_zero_iff.mp hb
    by_contra hlt
    rw [show b.toInt.natAbs = 1 by omega,Nat.mod_one] at hrem
    omega
  have hhalf : (a.toInt.tdiv b.toInt).natAbs ≤ a.toInt.natAbs/2 := by
    rw [Int.natAbs_tdiv]
    exact Nat.div_le_div_left htwo (by norm_num)
  have hne : b ≠ -1 := by
    rintro rfl
    simp at htwo
  have hlow := a.le_toInt
  have hhigh := a.toInt_lt
  rw [Int64.toInt_sub,Int64.toInt_div_of_ne_right a b hne,Int64.toInt_one]
  exact bmod_of_range (by omega) (by omega)

/-- The remainder can be raised. It and the divisor have different signs then. -/
lemma toInt_raised {a b : Int64} (h : ¬(a % b < 0 ↔ b < 0)) :
    (a % b + b).toInt = (a % b).toInt + b.toInt := by
  rw [← toInt_lt_zero_iff,← toInt_lt_zero_iff] at h
  have hlow := (a % b).le_toInt
  have hhigh := (a % b).toInt_lt
  have hlow' := b.le_toInt
  have hhigh' := b.toInt_lt
  rw [Int64.toInt_add]
  exact bmod_of_range (by omega) (by omega)

lemma toInt_floorMod (a b : Int64) :
    (floorMod a b).toInt = if a.toInt.tmod b.toInt ≠ 0 ∧ ¬(a.toInt.tmod b.toInt < 0 ↔ b.toInt < 0)
      then a.toInt.tmod b.toInt + b.toInt else a.toInt.tmod b.toInt := by
  simp only [floorMod_eq,mod_ne_zero_iff,← toInt_lt_zero_iff,← Int64.toInt_mod]
  split
  · next h => exact toInt_raised (by simpa only [toInt_lt_zero_iff] using h.2)
  · rfl

lemma toInt_floorDiv {a b : Int64} (hb : b ≠ 0) (h : ¬Wraps a b) :
    (floorDiv a b).toInt = if a.toInt.tmod b.toInt ≠ 0 ∧ ¬(a.toInt < 0 ↔ b.toInt < 0)
      then a.toInt.tdiv b.toInt - 1 else a.toInt.tdiv b.toInt := by
  simp only [floorDiv_eq,mod_ne_zero_iff,← toInt_lt_zero_iff,← toInt_div_of_not_wraps h]
  split
  · next hc => exact toInt_lowered hb (mod_ne_zero_iff.mpr hc.1)
  · rfl

/-- Quotient and remainder of two words. Corrections of what the machine gives are exact. -/
structure WordDivision (a b q r : Int64) : Prop where
  quotient : ¬Wraps a b → q.toInt = ⌊(a.toInt : ℚ)/b.toInt⌋
  wrapped : Wraps a b → q = Int64.minValue
  remainder : r.toInt = a.toInt - b.toInt*⌊(a.toInt : ℚ)/b.toInt⌋
  sign : r = 0 ∨ (r < 0 ↔ b < 0)
  small : |r.toInt| < |b.toInt|
  sum : q.toInt*b.toInt + r.toInt ≡ a.toInt [ZMOD 2^64]
  lowered : q ≠ a/b → q.toInt = (a/b).toInt - 1
  raised : r ≠ a % b → r.toInt = (a % b).toInt + b.toInt

lemma wordDivision {a b : Int64} (hb : b ≠ 0) :
    WordDivision a b (floorDiv a b) (floorMod a b) := by
  have hround := roundsDown_corrected (a := a.toInt) (mt toInt_eq_zero_iff.mp hb)
  rw [← toInt_floorMod] at hround
  refine ⟨fun h => ?_,?_,hround.remainder,?_,hround.small,?_,?_,?_⟩
  · rw [toInt_floorDiv hb h,hround.floor]
  · rintro ⟨rfl,rfl⟩
    decide
  · rw [← toInt_eq_zero_iff,← toInt_lt_zero_iff,← toInt_lt_zero_iff]
    exact hround.sign
  · by_cases h : Wraps a b
    · obtain ⟨rfl,rfl⟩ := h
      decide
    · rw [← toInt_floorDiv hb h] at hround
      rw [hround.sum]
  · intro hne
    rw [floorDiv_eq] at hne ⊢
    split at hne
    · next h =>
      rw [if_pos h]
      exact toInt_lowered hb h.1
    · exact absurd rfl hne
  · intro hne
    rw [floorMod_eq] at hne ⊢
    split at hne
    · next h =>
      rw [if_pos h]
      exact toInt_raised h.2
    · exact absurd rfl hne

/-- Sums, differences and products of words are exact up to a multiple of 2^64. Division fails just for
the divisor zero. Otherwise the quotient is rounded down, the remainder has the sign of the divisor and
is smaller, and both go together; of all quotients only one, of the least word by minus one, is no word
and wraps. -/
theorem word_arithmetic (a b : Int64) :
    arith .add (int a) (int b) = .ok (int (Int64.ofInt (a.toInt + b.toInt))) ∧
    arith .sub (int a) (int b) = .ok (int (Int64.ofInt (a.toInt - b.toInt))) ∧
    arith .mul (int a) (int b) = .ok (int (Int64.ofInt (a.toInt*b.toInt))) ∧
    (∀ op ∈ [Arith.div,.floorDiv,.mod], arith op (int a) (int b) = .error .zeroDivisor ↔ b = 0) ∧
    (b ≠ 0 → ∃ x q r, arith .div (int a) (int b) = .ok (float x) ∧
      arith .floorDiv (int a) (int b) = .ok (int q) ∧ arith .mod (int a) (int b) = .ok (int r) ∧
      WordDivision a b q r) := by
  refine ⟨?_,?_,?_,?_,fun hb => ?_⟩
  · rw [Int64.ofInt_add,Int64.ofInt_toInt,Int64.ofInt_toInt]
    rfl
  · rw [Int64.ofInt_sub,Int64.ofInt_toInt,Int64.ofInt_toInt]
    rfl
  · rw [Int64.ofInt_mul,Int64.ofInt_toInt,Int64.ofInt_toInt]
    rfl
  · intro op hop
    fin_cases hop <;> simp [arith,arithNumber,arithInt]
  · have hzero : (b == 0) = false := beq_eq_false_iff_ne.mpr hb
    refine ⟨Float.ofInt a.toInt / Float.ofInt b.toInt,floorDiv a b,floorMod a b,?_,?_,?_,
      wordDivision hb⟩
    · simp only [arith,arithNumber,arithInt,hzero,Bool.false_eq_true,if_false]
    · simp only [arith,arithNumber,arithInt,hzero,Bool.false_eq_true,if_false]
    · simp only [arith,arithNumber,arithInt,hzero,Bool.false_eq_true,if_false]

example : arith .floorDiv (int (-7)) (int 2) = .ok (int (-4)) := rfl

end CellScript.Value
