import Mathlib
import CellScript.Proofs.Number.Significant

/-! Whole numbers as floating point numbers. A number of 64 bits is held as the nearest one of 53
significant bits, and numbers that are held are compared by their values. -/
namespace CellScript.Number

open Float.Model Float.Model.UnpackedFloat

/-- The bits that a shift by n leaves of m, with what the last of the others were. -/
def shifted (m : ℕ) : ℕ → ExtendedMantissa
  | 0 => ⟨m,false,false⟩
  | n+1 => ⟨m/2^(n+1),m/2^n % 2 != 0,m % 2^n != 0⟩

lemma mod_two_pow_succ (m n : ℕ) : m % 2^(n+1) = 2^n*(m/2^n % 2) + m % 2^n := by
  rw [pow_succ,Nat.mod_mul]
  omega

lemma shiftRight_eq (m n : ℕ) : (⟨m,false,false⟩ : ExtendedMantissa) >>> n = shifted m n := by
  change n.repeat ExtendedMantissa.shiftRightOne _ = _
  induction n with
  | zero => rfl
  | succ n ih =>
    rw [Nat.repeat,ih]
    cases n with
    | zero => simp [shifted,ExtendedMantissa.shiftRightOne,Nat.mod_one]
    | succ n =>
      have hsticky : (m/2^n % 2 != 0 || m % 2^n != 0) = (m % 2^(n+1) != 0) := by
        rw [mod_two_pow_succ]
        rcases Nat.mod_two_eq_zero_or_one (m/2^n) with h | h <;> simp [h]
      simp only [shifted,ExtendedMantissa.shiftRightOne,hsticky,Nat.div_div_eq_div_mul,← pow_succ]

/-- What is left of a number after a shift, rounded by the bits that are lost. -/
lemma roundedMantissa_shifted (m n : ℕ) : (shifted m n).roundedMantissa = divNearest m (2^n) := by
  cases n with
  | zero => exact (divNearest_one m).symm
  | succ n =>
    have hrest := Nat.mod_lt m (Nat.two_pow_pos n)
    rw [divNearest,mod_two_pow_succ,shifted,ExtendedMantissa.roundedMantissa,
      show 2^(n+1) = 2*2^n from pow_succ' 2 n]
    -- the first bit that is lost is worth half of the unit
    rcases Nat.mod_two_eq_zero_or_one (m/2^n) with hbit | hbit
    · have hbelow : ¬2*(m % 2^n) > 2*2^n ∧ 2*(m % 2^n) ≠ 2*2^n := by omega
      cases m % 2^n != 0 <;>
        simp [ExtendedMantissa.accuracy,Accuracy.roundToNearestEven,hbit,hbelow]
    · by_cases hr : m % 2^n = 0
      · rcases Nat.mod_two_eq_zero_or_one (m/(2*2^n)) with hlast | hlast <;>
          simp [ExtendedMantissa.accuracy,Accuracy.roundToNearestEven,hbit,hr,hlast]
      · have habove : 2*(2^n + m % 2^n) > 2*2^n := by omega
        have hsticky : (m % 2^n != 0) = true := bne_iff_ne.mpr hr
        simp [ExtendedMantissa.accuracy,Accuracy.roundToNearestEven,hbit,hsticky,habove]

/-- A number of 53 bits, times a power of two. -/
def IsNormal (m : ℕ) : Prop := 2^52 ≤ m ∧ m < 2^53

lemma log2_of_isNormal {m : ℕ} (h : IsNormal m) : m.log2 = 52 := by
  have hm : m ≠ 0 := by
    have := h.1
    omega
  have hlow := (Nat.le_log2 hm).mpr h.1
  have hhigh := (Nat.log2_lt hm).mpr h.2
  omega

lemma targetExponent_eq {m : ℕ} {e : ℤ} (h : -1074 ≤ m.log2 + e - 52) :
    Format.binary64.targetExponent (totalExponent m e) = m.log2 + e - 52 := by
  have hmin : Format.binary64.minExponent = -1074 := by decide
  have hbits : (Format.binary64.mantissaBits : ℤ) = 53 := by decide
  rw [Format.targetExponent,totalExponent,hmin,hbits]
  omega

lemma shiftToExponent_eq (m : ℕ) (e t : ℤ) :
    shiftToExponent m e .exact t = (shifted m (t-e).toNat,e + (t-e).toNat) := by
  rw [← shiftRight_eq]
  rfl

lemma shiftToTargetExponent_eq {m : ℕ} {e : ℤ} (hm : 52 ≤ m.log2) (he : -1074 ≤ m.log2 + e - 52) :
    shiftToTargetExponent Format.binary64 m e .exact =
      (shifted m (excess m),m.log2 + e - 52) := by
  rw [shiftToTargetExponent,targetExponent_eq he,shiftToExponent_eq]
  have hshift : (m.log2 + e - 52 - e).toNat = excess m := by
    unfold excess
    omega
  rw [hshift]
  congr 1
  unfold excess
  omega

/-- Rounding keeps 53 bits. When they run over into the next power of two, they are shifted once more. -/
lemma roundWithAccuracy_eq (s : Sign) {m : ℕ} {e : ℤ} (hm : 52 ≤ m.log2)
    (he : -1074 ≤ m.log2 + e - 52) :
    ∃ m' c : ℕ, ∃ h : 0 < m', IsNormal m' ∧ c ≤ 1 ∧ m'*2^c = divNearest m (2^excess m) ∧
      roundWithAccuracy Format.binary64 s m e .exact =
        .finite s m' (m.log2 + e - 52 + c) h := by
  have hlow := le_divNearest_excess hm
  have hround : roundWithAccuracy Format.binary64 s m e .exact =
      let x := shiftToTargetExponent Format.binary64 (divNearest m (2^excess m))
        (m.log2 + e - 52) .exact
      if h : x.1.mantissa = 0 then .zero s
      else .finite s x.1.mantissa x.2 (Nat.pos_of_ne_zero h) := by
    rw [roundWithAccuracy,shiftToTargetExponent_eq hm he,← roundedMantissa_shifted]
  rcases (divNearest_excess_le m).lt_or_eq with hlt | heq
  · have hnormal : IsNormal (divNearest m (2^excess m)) := ⟨hlow,hlt⟩
    have hlog := log2_of_isNormal hnormal
    generalize divNearest m (2^excess m) = q at *
    have hshift : shiftToTargetExponent Format.binary64 q (m.log2 + e - 52) .exact =
        (⟨q,false,false⟩,m.log2 + e - 52) := by
      rw [shiftToTargetExponent_eq (by omega) (by omega),excess,hlog]
      congr 1
      omega
    rw [hshift] at hround
    refine ⟨q,0,by omega,hnormal,by omega,by omega,?_⟩
    rw [hround]
    simp only [show q ≠ 0 by omega,dif_neg,not_false_eq_true,Nat.cast_zero,add_zero]
  · rw [heq] at hround ⊢
    refine ⟨2^52,1,by norm_num,⟨le_rfl,by norm_num⟩,le_rfl,by norm_num,?_⟩
    have hlog : (2^53 : ℕ).log2 = 53 := Nat.log2_two_pow
    have hshift : shiftToTargetExponent Format.binary64 (2^53) (m.log2 + e - 52) .exact =
        (shifted (2^53) 1,m.log2 + e - 52 + 1) := by
      rw [shiftToTargetExponent_eq (by omega) (by omega),excess,hlog]
      congr 1
      omega
    rw [hshift] at hround
    rw [hround]
    rfl

lemma unpackSign_packComponents (s : Sign) (e : BitVec 11) (m : BitVec 52) :
    Sign.ofBitVec (unpackSign (packComponents Format.binary64 s e m)) = s := by
  simp only [unpackSign,packComponents,BitVec.extractLsb]
  rw [BitVec.extractLsb'_append_eq_of_le (by omega),BitVec.extractLsb'_append_eq_of_le (by omega)]
  cases s <;> rfl

lemma toNat_one_append {m : ℕ} (h : IsNormal m) : (1#1 ++ BitVec.ofNat 52 m).toNat = m := by
  obtain ⟨hlow,hhigh⟩ := h
  rw [BitVec.toNat_append,← Nat.shiftLeft_add_eq_or_of_lt (BitVec.ofNat 52 m).isLt,
    BitVec.toNat_ofNat,Nat.shiftLeft_eq,BitVec.toNat_ofNat]
  omega

/-- A number of 53 bits is encoded without loss. -/
lemma unpack_pack (s : Sign) {m : ℕ} {e : ℤ} (h : 0 < m) (hm : IsNormal m) (hlow : -1074 ≤ e)
    (hhigh : e ≤ 971) : (Float.Model.pack (.finite s m e h)).unpack = .finite s m e h := by
  have hbiased : (e + Format.binary64.exponentBias +
      Format.binary64.mantissaBitsWithoutImplicit).toNat = (e + 1075).toNat := by
    change (e + (1023 : ℕ) + (52 : ℕ)).toNat = _
    omega
  have hfits : ¬2^Format.binary64.exponentBits ≤ (e + 1075).toNat + 1 := by
    change ¬2^11 ≤ _
    omega
  have hexponent : (BitVec.ofNat 11 (e + 1075).toNat).toNat = (e + 1075).toNat := by
    rw [BitVec.toNat_ofNat]
    omega
  have hnotLast : BitVec.ofNat 11 (e + 1075).toNat ≠ -1#11 := by
    rw [ne_eq,← BitVec.toNat_inj,hexponent]
    change ¬_ = 2047
    omega
  have hnotZero : BitVec.ofNat 11 (e + 1075).toNat ≠ 0#11 := by
    rw [ne_eq,← BitVec.toNat_inj,hexponent]
    change ¬_ = 0
    omega
  change UnpackedFloat.unpack _ (UnpackedFloat.pack _ _) = _
  rw [UnpackedFloat.pack]
  simp only [hbiased,log2_of_isNormal hm]
  rw [if_neg hfits,if_pos (show 52 + 1 = Format.binary64.mantissaBits by decide),
    UnpackedFloat.unpack]
  simp only [unpackMantissa_packComponents,unpackExponent_packComponents,
    unpackSign_packComponents]
  rw [if_neg hnotLast,if_neg hnotZero]
  congr 1
  · exact toNat_one_append hm
  · rw [hexponent]
    change _ - ((1023 : ℕ) + (52 : ℕ) : ℤ) = _
    omega

/-- An encoded number that is a whole one. -/
inductive Holds : UnpackedFloat → ℤ → Prop
  | zero (s : Sign) : Holds (.zero s) 0
  | finite (s : Sign) {m k v : ℕ} (h : 0 < m) (hm : IsNormal m) (hk : k ≤ 65)
      (hv : m*2^k = v*2^52) : Holds (.finite s m (k-52) h) (s.apply v)

lemma compare_magnitudes {m m' k k' : ℕ} (hm : IsNormal m) (hm' : IsNormal m') :
    (compare (k-52 : ℤ) (k'-52)).then (compare m m') = compare (m*2^k) (m'*2^k') := by
  have hhigher : ∀ {a b i j : ℕ}, IsNormal a → IsNormal b → i < j → a*2^i < b*2^j := by
    intro a b i j ha hb hij
    calc a*2^i < 2^53*2^i := Nat.mul_lt_mul_of_pos_right ha.2 (Nat.two_pow_pos i)
      _ = 2^52*2^(i+1) := by ring
      _ ≤ b*2^j := Nat.mul_le_mul hb.1 (Nat.pow_le_pow_right (by norm_num) hij)
  rcases lt_trichotomy k k' with hk | rfl | hk
  · rw [Int.compare_eq_lt.mpr (by omega),Nat.compare_eq_lt.mpr (hhigher hm hm' hk)]
    rfl
  · rw [Int.compare_eq_eq.mpr rfl]
    change compare m m' = _
    rcases lt_trichotomy m m' with hlt | rfl | hlt
    · rw [Nat.compare_eq_lt.mpr hlt,
        Nat.compare_eq_lt.mpr (Nat.mul_lt_mul_of_pos_right hlt (Nat.two_pow_pos k))]
    · rw [Nat.compare_eq_eq.mpr rfl,Nat.compare_eq_eq.mpr rfl]
    · rw [Nat.compare_eq_gt.mpr hlt,
        Nat.compare_eq_gt.mpr (Nat.mul_lt_mul_of_pos_right hlt (Nat.two_pow_pos k))]
  · rw [Int.compare_eq_gt.mpr (by omega),Nat.compare_eq_gt.mpr (hhigher hm' hm hk)]
    rfl

lemma pos_of_value {m k v : ℕ} (h : 0 < m) (hv : m*2^k = v*2^52) : 0 < v := by
  have hpos : 0 < v*2^52 := hv ▸ Nat.mul_pos h (Nat.two_pow_pos k)
  exact Nat.pos_of_mul_pos_right hpos

/-- Numbers of 53 bits have the order of their values. -/
lemma compare_values {m m' k k' v v' : ℕ} (hm : IsNormal m) (hm' : IsNormal m')
    (hv : m*2^k = v*2^52) (hv' : m'*2^k' = v'*2^52) :
    (compare (k-52 : ℤ) (k'-52)).then (compare m m') = compare (v : ℤ) v' := by
  rw [compare_magnitudes hm hm',hv,hv']
  rcases lt_trichotomy v v' with h | rfl | h
  · rw [Nat.compare_eq_lt.mpr (by omega),Int.compare_eq_lt.mpr (by omega)]
  · rw [Nat.compare_eq_eq.mpr rfl,Int.compare_eq_eq.mpr rfl]
  · rw [Nat.compare_eq_gt.mpr (by omega),Int.compare_eq_gt.mpr (by omega)]

lemma compare_neg_neg (a b : ℤ) : compare (-a) (-b) = (compare a b).swap := by
  rcases lt_trichotomy a b with h | rfl | h
  · rw [Int.compare_eq_lt.mpr h,Int.compare_eq_gt.mpr (by omega)]
    rfl
  · rw [Int.compare_eq_eq.mpr rfl,Int.compare_eq_eq.mpr rfl]
    rfl
  · rw [Int.compare_eq_gt.mpr h,Int.compare_eq_lt.mpr (by omega)]
    rfl

/-- Whole numbers are compared by their values. -/
lemma Holds.compare_eq {u u' : UnpackedFloat} {a b : ℤ} (h : Holds u a) (h' : Holds u' b) :
    u.compare u' = some (compare a b) := by
  have hless : ∀ {a b : ℤ}, a < b → some Ordering.lt = some (compare a b) :=
    fun h => congrArg some (Int.compare_eq_lt.mpr h).symm
  have hgreater : ∀ {a b : ℤ}, b < a → some Ordering.gt = some (compare a b) :=
    fun h => congrArg some (Int.compare_eq_gt.mpr h).symm
  cases h with
  | zero s =>
    cases h' with
    | zero s' => rfl
    | finite s' hm' _ _ hv' =>
      have hpos' := pos_of_value hm' hv'
      cases s' with
      | negative => exact hgreater (by simp [Sign.apply,hpos'])
      | positive => exact hless (by simp [Sign.apply,hpos'])
  | finite s hm hnormal _ hv =>
    have hpos := pos_of_value hm hv
    cases h' with
    | zero s' =>
      cases s with
      | negative => exact hless (by simp [Sign.apply,hpos])
      | positive => exact hgreater (by simp [Sign.apply,hpos])
    | finite s' hm' hnormal' _ hv' =>
      have hpos' := pos_of_value hm' hv'
      have hvalues := compare_values hnormal hnormal' hv hv'
      cases s with
      | negative =>
        cases s' with
        | negative => exact congrArg some ((congrArg _ hvalues).trans (compare_neg_neg _ _).symm)
        | positive => exact hless (by simp only [Sign.apply]; omega)
      | positive =>
        cases s' with
        | negative => exact hgreater (by simp only [Sign.apply]; omega)
        | positive => exact congrArg some hvalues

lemma Holds.unpack_pack {u : UnpackedFloat} {a : ℤ} (h : Holds u a) :
    (Float.Model.pack u).unpack = u := by
  cases h with
  | zero s => cases s <;> rfl
  | finite s hm hnormal hk hv => exact Number.unpack_pack s hm hnormal (by omega) (by omega)

lemma Holds.neg {u : UnpackedFloat} {a : ℤ} (h : Holds u a) : Holds u.neg (-a) := by
  cases h with
  | zero s => exact .zero _
  | @finite s m k v hm hnormal hk hv =>
    have hsign : -s.apply v = (-s).apply v := by
      cases s with
      | negative => exact Int.neg_neg _
      | positive => rfl
    rw [hsign]
    exact .finite _ hm hnormal hk hv

lemma holds_roundWithAccuracy (s : Sign) {m j v : ℕ} {e : ℤ} (hm : 52 ≤ m.log2)
    (he : m.log2 + e = j) (hj : j ≤ 64) (hv : divNearest m (2^excess m)*2^j = v*2^52) :
    Holds (roundWithAccuracy Format.binary64 s m e .exact) (s.apply v) := by
  obtain ⟨m',c,h,hnormal,hc,hm',hround⟩ := roundWithAccuracy_eq s hm (e := e) (by omega)
  have hexponent : m.log2 + e - 52 + c = ((j+c : ℕ) : ℤ) - 52 := by
    push_cast
    omega
  rw [hround,hexponent]
  refine .finite s h hnormal (by omega) ?_
  rw [← hv,← hm',pow_add]
  ring

lemma log2_mul_two_pow {m n : ℕ} (hm : 0 < m) : (m*2^n).log2 = m.log2 + n := by
  have hlow := Nat.log2_self_le hm.ne'
  have hhigh := Nat.lt_log2_self (n := m)
  have hpos : m*2^n ≠ 0 := (Nat.mul_pos hm (Nat.two_pow_pos n)).ne'
  refine Nat.le_antisymm (Nat.lt_succ_iff.mp ((Nat.log2_lt hpos).mpr ?_)) ((Nat.le_log2 hpos).mpr ?_)
  · calc m*2^n < 2^(m.log2+1)*2^n := Nat.mul_lt_mul_of_pos_right hhigh (Nat.two_pow_pos n)
      _ = 2^(m.log2+n+1) := by ring
  · rw [pow_add]
    exact Nat.mul_le_mul_right _ hlow

lemma holds_ofUInt64 {n : ℕ} (hn : 0 < n) (h : n < 2^53) :
    Holds (UnpackedFloat.ofUInt64 Format.binary64 n.toUInt64) n := by
  have hlog : n.log2 ≤ 52 := Nat.lt_succ_iff.mp ((Nat.log2_lt hn.ne').mpr h)
  have hword : n.toUInt64.toNat = n := UInt64.toNat_ofNat_of_lt' (h.trans (by norm_num))
  have hround : UnpackedFloat.ofUInt64 Format.binary64 n.toUInt64 =
      UnpackedFloat.round Format.binary64 .positive n 0 := by
    rw [UnpackedFloat.ofUInt64,hword,UnpackedFloat.ofNat,UnpackedFloat.ofInt]
    unfold UnpackedFloat.normalize
    rw [Int.compare_eq_gt.mpr (by omega)]
    rfl
  rw [hround,UnpackedFloat.round,targetExponent_eq (by omega)]
  have hdecrease : decreaseExponent n 0 (n.log2 + 0 - 52) = (n*2^(52-n.log2),(n.log2 : ℤ)-52) := by
    rw [decreaseExponent,Nat.shiftLeft_eq,
      show (0-((n.log2 : ℤ)+0-52)).toNat = 52-n.log2 by omega]
    congr 1
    omega
  rw [hdecrease]
  have hlog' : (n*2^(52-n.log2)).log2 = 52 := by
    rw [log2_mul_two_pow hn]
    omega
  refine holds_roundWithAccuracy .positive (j := n.log2) (v := n) hlog'.ge ?_ (by omega) ?_
  · rw [hlog']
    omega
  rw [excess,hlog',Nat.sub_self,pow_zero,divNearest_one,mul_assoc,← pow_add]
  congr 2
  omega

/-- One, the power of ten that a whole number is multiplied by. -/
lemma unpack_one : (Float.ofBits 0x3FF0000000000000).toModel.unpack =
    .finite .positive (2^52) (-52) (by norm_num) := rfl

lemma sign_mul_positive (s : Sign) : s*.positive = s := by
  cases s <;> rfl

lemma Holds.mul_one {u : UnpackedFloat} {a : ℤ} (h : Holds u a) :
    UnpackedFloat.mul Format.binary64 u (.finite .positive (2^52) (-52) (by norm_num)) = u := by
  cases h with
  | zero s => rw [UnpackedFloat.mul,sign_mul_positive]
  | @finite s m k v hm hnormal hk hv =>
    have hlog : (m*2^52).log2 = 104 := by rw [log2_mul_two_pow hm,log2_of_isNormal hnormal]
    obtain ⟨m',c,h',hnormal',hc,hm',hround⟩ := roundWithAccuracy_eq s (m := m*2^52)
      (e := (k-52 : ℤ) + -52) (by omega) (by omega)
    rw [excess,hlog,divNearest_mul_self (Nat.two_pow_pos _)] at hm'
    -- the bits are those of the number itself, so they do not run over
    obtain rfl : c = 0 := by
      obtain rfl | rfl : c = 0 ∨ c = 1 := by omega
      · rfl
      · have := hnormal.2
        have := hnormal'.1
        omega
    obtain rfl : m' = m := by simpa using hm'
    rw [UnpackedFloat.mul,sign_mul_positive,hround,hlog]
    congr 1
    push_cast
    ring

lemma ofNat_small {n : ℕ} (h : n < 2^53) :
    Float.ofNat n = n.toUInt64.toFloat*Float.ofBits 0x3FF0000000000000 := by
  change Float.ofScientific n false 0 = _
  rw [Float.ofScientific,dif_pos ⟨h,by norm_num⟩]
  rfl

lemma ofNat_large {n : ℕ} (h : 2^53 ≤ n) :
    Float.ofNat n = .ofModel (.ofScientific n 0) := by
  change Float.ofScientific n false 0 = _
  rw [Float.ofScientific,dif_neg (by omega)]
  rfl

/-- A large number is multiplied by one with 53 more bits, all of them zero. -/
lemma ofScientific_eq {n : ℕ} (hn : n ≠ 0) : UnpackedFloat.ofScientific Format.binary64 n 0 =
    roundWithAccuracy Format.binary64 .positive (n*2^53) (-53) .exact := by
  have htop : ¬(0 : ℤ) > 2^Format.binary64.exponentBits := by decide
  have hbottom : ¬(0 : ℤ) < -((2^Format.binary64.exponentBits : ℤ) + n.log2) := by
    change ¬(0 : ℤ) < -((2^11 : ℤ) + n.log2)
    omega
  have hbits : n <<< Format.binary64.mantissaBits*10^(0 : ℤ).toNat = n*2^53 := by
    rw [Nat.shiftLeft_eq]
    exact Nat.mul_one _
  rw [UnpackedFloat.ofScientific,dif_neg hn,if_neg htop,if_neg hbottom,if_pos (le_refl (0 : ℤ)),
    UnpackedFloat.mul,hbits]
  rfl

lemma holds_ofScientific {n : ℕ} (hlow : 2^53 ≤ n) (hhigh : n < 2^64) :
    Holds (UnpackedFloat.ofScientific Format.binary64 n 0) (significant n) := by
  have hn : n ≠ 0 := by omega
  have hlog : 53 ≤ n.log2 ∧ n.log2 ≤ 63 :=
    ⟨(Nat.le_log2 hn).mpr hlow,Nat.lt_succ_iff.mp ((Nat.log2_lt hn).mpr hhigh)⟩
  have hwide : (n*2^53).log2 = n.log2 + 53 := log2_mul_two_pow (Nat.pos_of_ne_zero hn)
  have hexcess : excess (n*2^53) = excess n + 53 := by
    unfold excess
    omega
  rw [ofScientific_eq hn]
  refine holds_roundWithAccuracy .positive (j := n.log2) (by omega) (by omega) (by omega) ?_
  have hsplit : 2^(excess n + 53) = 2^excess n*2^53 := pow_add 2 _ _
  have hunit : excess n + 52 = n.log2 := by
    unfold excess
    omega
  rw [hexcess,hsplit,divNearest_mul_right (Nat.two_pow_pos 53),significant,mul_assoc,← pow_add,hunit]

/-- A number of 64 bits is taken as the nearest one of 53 significant bits. -/
lemma holds_ofNat {n : ℕ} (h : n < 2^64) : Holds (Float.ofNat n).toModel.unpack (significant n) := by
  rcases Nat.lt_or_ge n (2^53) with hlow | hlow
  · rcases Nat.eq_zero_or_pos n with rfl | hn
    · exact .zero .positive
    · have hword := holds_ofUInt64 hn hlow
      have hmodel : (Float.ofNat n).toModel = Float.Model.pack (UnpackedFloat.mul Format.binary64
          (Float.Model.pack (UnpackedFloat.ofUInt64 Format.binary64 n.toUInt64)).unpack
          (Float.ofBits 0x3FF0000000000000).toModel.unpack) := by
        rw [ofNat_small hlow]
        rfl
      rw [hmodel,hword.unpack_pack,unpack_one,hword.mul_one,hword.unpack_pack,
        significant_of_le hlow.le]
      exact hword
  · have hwide := holds_ofScientific hlow h
    rw [ofNat_large hlow]
    change Holds (Float.Model.pack _).unpack _
    rwa [hwide.unpack_pack]

/-- So is a signed number. -/
theorem holds_ofInt {n : ℤ} (h : n.natAbs < 2^64) : Holds (Float.ofInt n).toModel.unpack (rounded n) := by
  cases n with
  | ofNat n => exact holds_ofNat h
  | negSucc n =>
    have hn := (holds_ofNat (n := n+1) h).neg
    have hmodel : (Float.ofInt (.negSucc n)).toModel =
        Float.Model.pack (Float.ofNat (n+1)).toModel.unpack.neg := rfl
    rw [hmodel,hn.unpack_pack,rounded,if_pos (Int.negSucc_lt_zero n)]
    exact hn

end CellScript.Number
