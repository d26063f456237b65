/-
  Proofs/Binary64/Integral.lean --- which doubles are integers that 64 bits hold, and that the cast
  gives exactly those integers.

  A value is compared as a whole number of the least positive unit.  So the fraction that is left
  without the whole part is zero only if there is none, and the ends of the range of 64-bit
  integers, taken as doubles, keep apart what lies within from what does not.
-/
import Polydoc.Binary64.Integer
import Polydoc.Proofs.Binary64.Rounding

set_option autoImplicit false

namespace Polydoc.Binary64

/-- The value of a finite number: a multiple of a power of two, with a sign. -/
def value (x : Binary64) : ℚ :=
  (if x.negative then -1 else 1) * x.significand * 2 ^ x.exponent

/-- The least positive number is one over two to this power.  Where it unfolds, the power of two is
worked out. -/
@[irreducible]
def unitPower : ℕ := 1074

/-- How many of the least positive numbers make one. -/
def unitsInOne : ℕ := 2 ^ unitPower

theorem unitPower_eq : unitPower = 1074 := by
  rw [unitPower]

theorem unitsInOne_pos : 0 < unitsInOne := Nat.two_pow_pos _

/-! ## Values in units -/

section Units

variable {x : Binary64} {n : ℤ}

theorem value_eq_units (x : Binary64) : x.value = x.units / unitsInOne := by
  have hexponent : x.exponent = ((max x.biased 1 - 1 : ℕ) : ℤ) - unitPower := by
    have hunit := unitPower_eq
    unfold exponent
    omega
  rw [value, hexponent, zpow_sub₀ two_ne_zero, zpow_natCast, zpow_natCast, units, unitsInOne]
  cases x.negative with
  | false =>
    rw [if_neg Bool.false_ne_true, if_neg Bool.false_ne_true]
    push_cast
    ring
  | true =>
    rw [if_pos rfl, if_pos rfl]
    push_cast
    ring

theorem value_eq_iff : x.value = n ↔ x.units = n * unitsInOne := by
  have hone : (unitsInOne : ℚ) ≠ 0 := by exact_mod_cast unitsInOne_pos.ne'
  rw [value_eq_units, div_eq_iff hone]
  norm_cast

theorem units_eq_zero_iff : x.units = 0 ↔ x.isZero = true := by
  have hpower := Nat.two_pow_pos (max x.biased 1 - 1)
  rw [← significand_eq_zero_iff, units]
  split
  · rw [neg_eq_zero, Int.natCast_eq_zero, Nat.mul_eq_zero]
    omega
  · rw [Int.natCast_eq_zero, Nat.mul_eq_zero]
    omega

/-- The ratio that a number is taken apart into, in units. -/
theorem ratio_units (x : Binary64) : ∃ k ≤ unitPower, x.ratio.2 = 2 ^ k ∧
    x.ratio.1 * unitsInOne = x.significand * 2 ^ (max x.biased 1 - 1) * x.ratio.2 := by
  have hunit := unitPower_eq
  unfold ratio exponent unitsInOne
  split
  · rename_i he
    refine ⟨0, Nat.zero_le _, rfl, ?_⟩
    dsimp only
    rw [Nat.mul_one, Nat.mul_assoc, ← Nat.pow_add]
    congr 2
    omega
  · rename_i he
    refine ⟨_, by omega, rfl, ?_⟩
    dsimp only
    rw [Nat.mul_assoc, ← Nat.pow_add]
    congr 2
    omega

theorem ratio_den_pos (x : Binary64) : 0 < x.ratio.2 := by
  obtain ⟨k, -, hden, -⟩ := ratio_units x
  rw [hden]
  exact Nat.two_pow_pos k

/-- A size in units is a whole number of ones if its ratio leaves no rest. -/
theorem size_eq_iff {size num den : ℕ} (hden : 0 < den) (h : num * unitsInOne = size * den) :
    (size : ℤ) = n * unitsInOne ↔ num % den = 0 ∧ ((num / den : ℕ) : ℤ) = n := by
  have hone := unitsInOne_pos
  constructor
  · intro hsize
    have hn : 0 ≤ n := by
      refine nonneg_of_mul_nonneg_left ?_ (by exact_mod_cast hone : (0 : ℤ) < unitsInOne)
      rw [← hsize]
      exact Int.natCast_nonneg size
    obtain ⟨m, rfl⟩ := Int.eq_ofNat_of_zero_le hn
    have hm : size = m * unitsInOne := by exact_mod_cast hsize
    have hnum : num = m * den := by
      rw [hm, Nat.mul_right_comm] at h
      exact Nat.eq_of_mul_eq_mul_right hone h
    rw [hnum]
    exact ⟨Nat.mul_mod_left m den, by rw [Nat.mul_div_cancel m hden]⟩
  · rintro ⟨hrest, rfl⟩
    have hnum : num / den * den = num := Nat.div_mul_cancel (Nat.dvd_of_mod_eq_zero hrest)
    have hsize : num / den * unitsInOne = size := by
      rw [← hnum, Nat.mul_right_comm] at h
      exact Nat.eq_of_mul_eq_mul_right hden h
    exact_mod_cast hsize.symm

/-- A value is an integer if its ratio leaves no rest, and the whole part is that integer. -/
theorem units_eq_iff : x.units = n * unitsInOne ↔ x.ratio.1 % x.ratio.2 = 0 ∧ x.whole = n := by
  obtain ⟨-, -, -, hratio⟩ := ratio_units x
  have hsize (n : ℤ) := size_eq_iff (n := n) (ratio_den_pos x) hratio
  unfold units whole
  dsimp only
  cases x.negative with
  | false => exact hsize n
  | true =>
    rw [if_pos rfl, if_pos rfl, neg_eq_iff_eq_neg, neg_eq_iff_eq_neg, ← neg_mul]
    exact hsize (-n)

theorem toInt?_eq_some_iff :
    x.toInt? = some n ↔ x.isFinite = true ∧ x.ratio.1 % x.ratio.2 = 0 ∧ x.whole = n := by
  unfold toInt? whole
  simp only [Option.ite_none_right_eq_some, Option.some.injEq]

/-- The integer that a number has for its value, if it has one. -/
theorem toInt?_eq_some_iff_value : x.toInt? = some n ↔ x.isFinite = true ∧ x.value = n := by
  rw [toInt?_eq_some_iff, ← units_eq_iff, value_eq_iff]

end Units

/-! ## Fractions -/

section Fractions

variable {x : Binary64} {num den : ℕ}

theorem divEven_mul (hden : 0 < den) (n : ℕ) : divEven (n * den) den = n := by
  have hdiv : n * den / den = n := Nat.mul_div_cancel n hden
  have hmod : n * den % den = 0 := Nat.mul_mod_left n den
  unfold divEven
  dsimp only
  rw [hdiv, hmod, if_pos (by omega)]

theorem roundMagnitude_le (num den : ℕ) : roundMagnitude num den ≤ infinityMagnitude := by
  unfold roundMagnitude
  split
  · exact Nat.zero_le _
  · exact Nat.min_le_right _ _

/-- A multiple of the least unit rounds to zero only if it is zero. -/
theorem roundMagnitude_eq_zero_iff {k : ℕ} (hk : k ≤ unitPower) :
    roundMagnitude num (2 ^ k) = 0 ↔ num = 0 := by
  constructor
  · intro h
    by_contra hnum
    rw [roundMagnitude, if_neg hnum] at h
    dsimp only at h
    generalize he : max (log2Ratio num (2 ^ k) - 52) (-1074) = e at h
    have hinfinity : infinityMagnitude ≠ 0 := by decide
    by_cases hleast : e = -1074
    · -- at the least spacing nothing is rounded
      have hexact : num * 2 ^ (-e).toNat = num * 2 ^ (unitPower - k) * 2 ^ k := by
        have hunit := unitPower_eq
        rw [Nat.mul_assoc, ← Nat.pow_add]
        congr 2
        omega
      have hpos : 0 < num * 2 ^ (unitPower - k) :=
        Nat.mul_pos (Nat.pos_of_ne_zero hnum) (Nat.two_pow_pos _)
      rw [if_neg (by omega), hexact, divEven_mul (Nat.two_pow_pos k)] at h
      omega
    · omega
  · rintro rfl
    rfl

theorem isNaN_eq_false_of_le (h : x.magnitude ≤ infinityMagnitude) : x.isNaN = false := by
  rw [isNaN, biased_eq, fraction_eq, Bool.and_eq_false_iff, beq_eq_false_iff_ne,
    bne_eq_false_iff_eq]
  unfold infinityMagnitude at h
  omega

/-- The fraction of a finite number is zero if the ratio leaves no rest. -/
theorem fract_equals_zero_iff (hfinite : x.isFinite = true) :
    x.fract.equals zero = true ↔ x.ratio.1 % x.ratio.2 = 0 := by
  obtain ⟨k, hk, hden, -⟩ := ratio_units x
  have hmagnitude : x.fract.magnitude = roundMagnitude (x.ratio.1 % x.ratio.2) x.ratio.2 := by
    rw [fract, if_pos hfinite]
    refine magnitude_ofMagnitude ((roundMagnitude_le _ _).trans_lt ?_) _
    decide
  have hnan : x.fract.isNaN = false := isNaN_eq_false_of_le (hmagnitude ▸ roundMagnitude_le _ _)
  have hzero : zero.isNaN = false := by decide
  have hunits : zero.units = 0 := by decide
  simp only [equals, hnan, hzero, hunits, Bool.not_false, Bool.true_and, decide_eq_true_eq]
  rw [units_eq_zero_iff, isZero, beq_iff_eq, hmagnitude, hden, roundMagnitude_eq_zero_iff hk]

end Fractions

/-! ## The range of 64-bit integers -/

section Range

variable {x : Binary64} {n : ℤ}

theorem ofInt_minValue_units : (ofInt Int64.minValue.toInt).units = -2 ^ 63 * unitsInOne := by
  decide +kernel

/-- The greatest integer is rounded up. -/
theorem ofInt_maxValue_units : (ofInt Int64.maxValue.toInt).units = 2 ^ 63 * unitsInOne := by
  decide +kernel

theorem isNaN_of_isFinite (h : x.isFinite = true) : x.isNaN = false := by
  rw [isFinite, bne_iff_ne] at h
  rw [isNaN, Bool.and_eq_false_iff, beq_eq_false_iff_ne]
  exact .inl h

theorem minValue_le_iff (hfinite : x.isFinite = true) (h : x.units = n * unitsInOne) :
    (ofInt Int64.minValue.toInt).le x = true ↔ -2 ^ 63 ≤ n := by
  have hone : (0 : ℤ) < unitsInOne := by exact_mod_cast unitsInOne_pos
  have hend : (ofInt Int64.minValue.toInt).isNaN = false := by decide +kernel
  rw [le, hend, isNaN_of_isFinite hfinite, ofInt_minValue_units, h]
  simp only [Bool.not_false, Bool.true_and, decide_eq_true_eq]
  exact mul_le_mul_iff_left₀ hone

theorem lt_maxValue_iff (hfinite : x.isFinite = true) (h : x.units = n * unitsInOne) :
    x.lt (ofInt Int64.maxValue.toInt) = true ↔ n < 2 ^ 63 := by
  have hone : (0 : ℤ) < unitsInOne := by exact_mod_cast unitsInOne_pos
  have hend : (ofInt Int64.maxValue.toInt).isNaN = false := by decide +kernel
  rw [lt, hend, isNaN_of_isFinite hfinite, ofInt_maxValue_units, h]
  simp only [Bool.not_false, Bool.true_and, decide_eq_true_eq]
  exact mul_lt_mul_iff_left₀ hone

/-- The test for a 64-bit integer lets through the numbers whose value is one. -/
theorem isIntegral_iff :
    x.isIntegral = true ↔ ∃ n, x.toInt? = some n ∧ -2 ^ 63 ≤ n ∧ n < 2 ^ 63 := by
  simp only [isIntegral, Bool.and_eq_true]
  constructor
  · rintro ⟨⟨⟨hfinite, hfract⟩, hlow⟩, hhigh⟩
    rw [fract_equals_zero_iff hfinite] at hfract
    have hunits : x.units = x.whole * unitsInOne := units_eq_iff.mpr ⟨hfract, rfl⟩
    exact ⟨x.whole, toInt?_eq_some_iff.mpr ⟨hfinite, hfract, rfl⟩,
      (minValue_le_iff hfinite hunits).mp hlow, (lt_maxValue_iff hfinite hunits).mp hhigh⟩
  · rintro ⟨n, hn, hlow, hhigh⟩
    obtain ⟨hfinite, hratio⟩ := toInt?_eq_some_iff.mp hn
    have hunits := units_eq_iff.mpr hratio
    exact ⟨⟨⟨hfinite, (fract_equals_zero_iff hfinite).mpr hratio.1⟩,
      (minValue_le_iff hfinite hunits).mpr hlow⟩, (lt_maxValue_iff hfinite hunits).mpr hhigh⟩

/-- The cast leaves an integer within the range as it is. -/
theorem toInt64_of_toInt? (h : x.toInt? = some n) (hlow : -2 ^ 63 ≤ n) (hhigh : n < 2 ^ 63) :
    x.toInt64 = Int64.ofInt n := by
  obtain ⟨hfinite, -, hwhole⟩ := toInt?_eq_some_iff.mp h
  have hmin : Int64.minValue.toInt = -2 ^ 63 := by decide
  have hmax : Int64.maxValue.toInt = 2 ^ 63 - 1 := by decide
  rw [toInt64, isNaN_of_isFinite hfinite, if_neg Bool.false_ne_true, hwhole, hmin, hmax]
  congr 1
  omega

end Range

end Polydoc.Binary64
