import Mathlib
import CellScript.Number.Dyadic

/-! Whole numbers of 53 significant bits. Each whole number has a nearest one among them; the order of
two numbers is never turned around on the way there, but neighbours may meet. -/
namespace CellScript.Number

lemma divNearest_one (n : ℕ) : divNearest n 1 = n := by
  simp [divNearest,Nat.mod_one]

lemma divNearest_mul_right {c : ℕ} (hc : 0 < c) (a b : ℕ) :
    divNearest (a*c) (b*c) = divNearest a b := by
  have htwice : 2*(a % b*c) = 2*(a % b)*c := (mul_assoc _ _ _).symm
  unfold divNearest
  simp only [Nat.mul_div_mul_right _ _ hc,Nat.mul_mod_mul_right,htwice,gt_iff_lt,
    Nat.mul_lt_mul_right hc,Bool.beq_eq_decide_eq,Nat.mul_left_inj hc.ne']

lemma divNearest_mul_self {b : ℕ} (hb : 0 < b) (n : ℕ) : divNearest (n*b) b = n := by
  have h := divNearest_mul_right hb n 1
  rwa [one_mul,divNearest_one] at h

/-- The nearest quotient is the one rounded down or the next one. -/
lemma divNearest_bounds (a b : ℕ) : a/b ≤ divNearest a b ∧ divNearest a b ≤ a/b + 1 := by
  unfold divNearest
  dsimp only
  split <;> omega

lemma divNearest_mono (b : ℕ) {a a' : ℕ} (h : a ≤ a') :
    divNearest a b ≤ divNearest a' b := by
  rcases (Nat.div_le_div_right (c := b) h).lt_or_eq with hlt | heq
  · exact (divNearest_bounds a b).2.trans ((Nat.succ_le_of_lt hlt).trans (divNearest_bounds a' b).1)
  · have hmod : a % b ≤ a' % b := by
      have ha := Nat.div_add_mod a b
      have ha' := Nat.div_add_mod a' b
      rw [heq] at ha
      omega
    unfold divNearest
    simp only [heq]
    split <;> split <;> simp_all; omega

/-- How many bits of a number are too many. -/
def excess (n : ℕ) : ℕ := n.log2 - 52

/-- The nearest whole number of 53 significant bits; of two equally near ones, the one whose last bit is
zero. -/
def significant (n : ℕ) : ℕ := divNearest n (2^excess n)*2^excess n

/-- The nearest whole number of 53 significant bits and of the same sign. -/
def rounded (n : ℤ) : ℤ := if n < 0 then -significant n.natAbs else significant n.natAbs

/-- The 53 bits that are kept. They may run over into the next power of two. -/
lemma divNearest_excess_le (n : ℕ) : divNearest n (2^excess n) ≤ 2^53 := by
  have hlog : n < 2^53*2^excess n := by
    rw [← pow_add]
    exact Nat.lt_log2_self.trans_le (Nat.pow_le_pow_right (by norm_num) (by unfold excess; omega))
  have hdiv := (Nat.div_lt_iff_lt_mul (Nat.two_pow_pos _)).mpr hlog
  have hnext := (divNearest_bounds n (2^excess n)).2
  omega

lemma le_divNearest_excess {n : ℕ} (h : 52 ≤ n.log2) : 2^52 ≤ divNearest n (2^excess n) := by
  have hn : n ≠ 0 := by
    rintro rfl
    simp at h
  have hlog : 2^52*2^excess n ≤ n := by
    rw [← pow_add,show 52 + excess n = n.log2 by unfold excess; omega]
    exact Nat.log2_self_le hn
  exact ((Nat.le_div_iff_mul_le (Nat.two_pow_pos _)).mpr hlog).trans
    (divNearest_bounds n (2^excess n)).1

lemma significant_of_excess {n : ℕ} (h : excess n = 0) : significant n = n := by
  rw [significant,h,pow_zero,divNearest_one,mul_one]

/-- Nothing is lost of a number that has no more than 53 bits. -/
lemma significant_of_le {n : ℕ} (h : n ≤ 2^53) : significant n = n := by
  rcases h.lt_or_eq with hlt | rfl
  · rcases Nat.eq_zero_or_pos n with rfl | hn
    · rfl
    · have hlog := (Nat.log2_lt hn.ne').mpr hlt
      exact significant_of_excess (by unfold excess; omega)
  · decide +kernel

lemma excess_mono {n n' : ℕ} (h : n ≤ n') : excess n ≤ excess n' := by
  rcases Nat.eq_zero_or_pos n with rfl | hn
  · simp [excess]
  · have hlog : n.log2 ≤ n'.log2 :=
      (Nat.le_log2 (by omega)).mpr ((Nat.log2_self_le hn.ne').trans h)
    unfold excess
    omega

lemma significant_mono : Monotone significant := by
  intro n n' h
  rcases (excess_mono h).lt_or_eq with hlt | heq
  · -- a power of two lies between the two numbers, and it is reached by neither from the wrong side
    have hbits : 52 ≤ n'.log2 := by
      unfold excess at hlt
      omega
    calc significant n ≤ 2^53*2^excess n := Nat.mul_le_mul_right _ (divNearest_excess_le n)
      _ = 2^52*2^(excess n + 1) := by ring
      _ ≤ 2^52*2^excess n' := Nat.mul_le_mul_left _ (Nat.pow_le_pow_right (by norm_num) hlt)
      _ ≤ significant n' := Nat.mul_le_mul_right _ (le_divNearest_excess hbits)
  · rw [significant,significant,heq]
    exact Nat.mul_le_mul_right _ (divNearest_mono _ h)

lemma rounded_mono : Monotone rounded := by
  intro a b h
  unfold rounded
  split
  · split
    · have := significant_mono (show b.natAbs ≤ a.natAbs by omega)
      omega
    · omega
  · rw [if_neg (by omega)]
    exact_mod_cast significant_mono (show a.natAbs ≤ b.natAbs by omega)

lemma rounded_of_le {n : ℤ} (h : n.natAbs ≤ 2^53) : rounded n = n := by
  rw [rounded,significant_of_le h]
  split <;> omega

end CellScript.Number
