/-
  Proofs/Binary64/Rounding.lean --- no decimal rounds to two numbers.

  The rounding intervals of successive magnitudes meet in one point, and the intervals of all
  magnitudes follow one another in their order.  The point where two meet belongs to one of them at
  most: it does where the significand is even, and of two successive magnitudes one is odd.
-/
import Mathlib.Algebra.Order.Field.Power
import Mathlib.Tactic.FieldSimp
import Mathlib.Tactic.Linarith
import Mathlib.Tactic.Positivity
import Mathlib.Tactic.Ring
import Polydoc.Binary64.Shortest

set_option autoImplicit false

namespace Polydoc.Binary64

/-! ## Ends of intervals -/

/-- The value of a decimal. -/
def Decimal.value (d : Decimal) : ℚ := d.digits * (10 : ℚ) ^ d.exponent

/-- The lower end of an interval. -/
def Interval.lowEnd (r : Interval) : ℚ := r.low / r.den

/-- The upper end of an interval. -/
def Interval.highEnd (r : Interval) : ℚ := r.high / r.den

/-- The number around which the interval lies. -/
def Interval.middle (r : Interval) : ℚ := r.value / r.den

theorem zpow_of_nonneg {a : ℚ} {e : ℤ} (h : 0 ≤ e) : a ^ e = a ^ e.toNat := by
  rw [← zpow_natCast, Int.toNat_of_nonneg h]

theorem zpow_of_neg {a : ℚ} {e : ℤ} (h : ¬ 0 ≤ e) : a ^ e = (a ^ (-e).toNat)⁻¹ := by
  rw [← zpow_natCast, Int.toNat_of_nonneg (by omega), zpow_neg, inv_inv]

/-- A decimal lies in an interval if its value lies between the ends, which count where the interval
is closed. -/
theorem Interval.holds_iff {r : Interval} (hden : 0 < r.den) (d : Decimal) :
    r.holds d = true ↔
      if r.closed then r.lowEnd ≤ d.value ∧ d.value ≤ r.highEnd
      else r.lowEnd < d.value ∧ d.value < r.highEnd := by
  have hden' : (0 : ℚ) < r.den := by exact_mod_cast hden
  -- both sides over a common denominator
  obtain ⟨n, s, hs, hvalue, hholds⟩ : ∃ n s : ℕ, 0 < s ∧ d.value = (n : ℚ) / s ∧
      r.holds d = if r.closed then r.low * s ≤ n * r.den && n * r.den ≤ r.high * s
        else r.low * s < n * r.den && n * r.den < r.high * s := by
    by_cases he : 0 ≤ d.exponent
    · refine ⟨d.digits * 10 ^ d.exponent.toNat, 1, Nat.one_pos, ?_, ?_⟩
      · rw [Decimal.value, zpow_of_nonneg he]
        push_cast
        ring
      · simp only [Interval.holds, he, if_true, Nat.mul_one]
    · refine ⟨d.digits, 10 ^ (-d.exponent).toNat, by positivity, ?_, ?_⟩
      · rw [Decimal.value, zpow_of_neg he]
        push_cast
        ring
      · simp only [Interval.holds, he, if_false]
  have hs' : (0 : ℚ) < s := by exact_mod_cast hs
  rw [hholds, hvalue, Interval.lowEnd, Interval.highEnd, div_le_div_iff₀ hden' hs',
    div_le_div_iff₀ hs' hden', div_lt_div_iff₀ hden' hs', div_lt_div_iff₀ hs' hden']
  cases r.closed
  · simp only [Bool.false_eq_true, if_false, Bool.and_eq_true, decide_eq_true_eq]
    exact_mod_cast Iff.rfl
  · simp only [if_true, Bool.and_eq_true, decide_eq_true_eq]
    exact_mod_cast Iff.rfl

/-! ## The interval of a number -/

section Ends

variable {x y : Binary64}

/-- Below a power of two the doubles lie twice as dense as above it. -/
def narrow (x : Binary64) : Bool := x.fraction = 0 && 1 < x.biased

theorem den_interval_pos (x : Binary64) : 0 < (interval x).den := by
  unfold interval
  dsimp only
  split
  · exact Nat.one_pos
  · exact Nat.two_pow_pos _

theorem closed_interval (x : Binary64) : (interval x).closed = decide (x.significand % 2 = 0) := by
  unfold interval
  dsimp only
  split <;> rfl

/-- The numbers of an interval are multiples of a quarter of the spacing. -/
theorem interval_ends (x : Binary64) :
    (interval x).lowEnd =
        ((if narrow x then 4 * x.significand - 1 else 4 * x.significand - 2 : ℕ) : ℚ) *
          2 ^ (x.exponent - 2) ∧
      (interval x).middle = ((4 * x.significand : ℕ) : ℚ) * 2 ^ (x.exponent - 2) ∧
      (interval x).highEnd = ((4 * x.significand + 2 : ℕ) : ℚ) * 2 ^ (x.exponent - 2) := by
  by_cases he : 0 ≤ x.exponent - 2
  · simp only [Interval.lowEnd, Interval.middle, Interval.highEnd, interval, he, if_true,
      zpow_of_nonneg he, Nat.cast_one, div_one, ← narrow.eq_1]
    push_cast
    exact ⟨rfl, rfl, rfl⟩
  · simp only [Interval.lowEnd, Interval.middle, Interval.highEnd, interval, he, if_false,
      zpow_of_neg he, ← narrow.eq_1]
    push_cast
    exact ⟨rfl, rfl, rfl⟩

theorem lowEnd_lt_middle (x : Binary64) (h : x.significand ≠ 0) :
    (interval x).lowEnd < (interval x).middle := by
  obtain ⟨hlow, hmiddle, -⟩ := interval_ends x
  rw [hlow, hmiddle]
  refine mul_lt_mul_of_pos_right ?_ (by positivity)
  split
  · exact_mod_cast (by omega : 4 * x.significand - 1 < 4 * x.significand)
  · exact_mod_cast (by omega : 4 * x.significand - 2 < 4 * x.significand)

theorem lowEnd_lt_highEnd (x : Binary64) : (interval x).lowEnd < (interval x).highEnd := by
  obtain ⟨hlow, -, hhigh⟩ := interval_ends x
  rw [hlow, hhigh]
  refine mul_lt_mul_of_pos_right ?_ (by positivity)
  split
  · exact_mod_cast (by omega : 4 * x.significand - 1 < 4 * x.significand + 2)
  · exact_mod_cast (by omega : 4 * x.significand - 2 < 4 * x.significand + 2)

/-! Magnitudes -/

theorem biased_eq (x : Binary64) : x.biased = x.magnitude / 2 ^ 52 := by
  unfold biased magnitude
  omega

theorem fraction_eq (x : Binary64) : x.fraction = x.magnitude % 2 ^ 52 := by
  unfold fraction magnitude
  omega

theorem magnitude_lt (x : Binary64) : x.magnitude < 2 ^ 63 := by
  unfold magnitude
  omega

theorem magnitude_ofMagnitude {n : ℕ} (h : n < 2 ^ 63) (negative : Bool) :
    (ofMagnitude negative n).magnitude = n := by
  rw [magnitude, ofMagnitude, UInt64.toNat_ofNat']
  split <;> omega

/-- Numbers of one sign and one magnitude are the same. -/
theorem eq_of_magnitude (hsign : x.negative = y.negative) (h : x.magnitude = y.magnitude) :
    x = y := by
  have hx := x.bits.toNat_lt
  have hy := y.bits.toNat_lt
  unfold negative at hsign
  unfold magnitude at h
  have hbits : x.bits.toNat = y.bits.toNat := by
    rw [decide_eq_decide] at hsign
    omega
  cases x
  cases y
  exact congrArg Binary64.mk (UInt64.toNat_inj.mp hbits)

theorem significand_eq_zero_iff (x : Binary64) : x.significand = 0 ↔ x.isZero = true := by
  rw [isZero, beq_iff_eq, significand, biased_eq, fraction_eq]
  split <;> omega

/-- A significand is even just if the magnitude is. -/
theorem significand_mod_two (x : Binary64) : x.significand % 2 = x.magnitude % 2 := by
  rw [significand, fraction_eq]
  split <;> omega

/-- The intervals of successive magnitudes meet. -/
theorem lowEnd_of_succ (h : y.magnitude = x.magnitude + 1) :
    (interval y).lowEnd = (interval x).highEnd := by
  have hbx := biased_eq x
  have hby := biased_eq y
  have hfx := fraction_eq x
  have hfy := fraction_eq y
  rw [(interval_ends y).1, (interval_ends x).2.2]
  by_cases hcarry : x.fraction + 1 < 2 ^ 52
  · -- within one power of two
    have hb : y.biased = x.biased := by omega
    have hf : y.fraction = x.fraction + 1 := by omega
    have hm : y.significand = x.significand + 1 := by
      rw [significand, significand, hb, hf]
      split <;> omega
    have he : y.exponent = x.exponent := by rw [exponent, exponent, hb]
    have hn : narrow y = false := by rw [narrow, hf]; simp
    rw [hn, hm, he, if_neg Bool.false_ne_true]
    congr 2
  · -- the fraction is full, and the next number is a power of two
    have hb : y.biased = x.biased + 1 := by omega
    have hf : y.fraction = 0 := by omega
    have hfull : x.fraction = 2 ^ 52 - 1 := by omega
    have hm : y.significand = 2 ^ 52 := by
      rw [significand, if_neg (by omega), hf]
    by_cases hzero : x.biased = 0
    · have hmx : x.significand = 2 ^ 52 - 1 := by rw [significand, if_pos hzero, hfull]
      have he : y.exponent = x.exponent := by rw [exponent, exponent, hb, hzero]; rfl
      have hn : narrow y = false := by rw [narrow, hb, hzero]; simp
      rw [hn, hm, hmx, he, if_neg Bool.false_ne_true]
    · have hmx : x.significand = 2 ^ 53 - 1 := by
        rw [significand, if_neg hzero, hfull]
      have he : y.exponent - 2 = x.exponent - 2 + 1 := by
        rw [exponent, exponent, hb]
        omega
      have hn : narrow y = true := by
        rw [narrow, hf, hb]
        simpa using Nat.pos_of_ne_zero hzero
      rw [hn, hm, hmx, he, if_pos rfl, zpow_add_one₀ two_ne_zero]
      push_cast
      ring

/-- The intervals of other magnitudes lie apart. -/
theorem highEnd_lt_lowEnd (h : x.magnitude + 1 < y.magnitude) :
    (interval x).highEnd < (interval y).lowEnd := by
  obtain ⟨k, hk⟩ : ∃ k, y.magnitude = x.magnitude + 2 + k := Nat.exists_eq_add_of_le h
  induction k generalizing y with
  | zero =>
    have hbound := magnitude_lt y
    obtain ⟨z, hz⟩ : ∃ z : Binary64, z.magnitude = x.magnitude + 1 :=
      ⟨_, magnitude_ofMagnitude (by omega) false⟩
    rw [← lowEnd_of_succ hz, lowEnd_of_succ (x := z) (y := y) (by omega)]
    exact lowEnd_lt_highEnd z
  | succ k ih =>
    have hbound := magnitude_lt y
    obtain ⟨z, hz⟩ : ∃ z : Binary64, z.magnitude = x.magnitude + 2 + k :=
      ⟨_, magnitude_ofMagnitude (by omega) false⟩
    rw [lowEnd_of_succ (x := z) (by omega)]
    exact (ih (by omega) hz).trans (lowEnd_lt_highEnd z)

end Ends

section Unique

variable {x y : Binary64} {d e : Decimal}

theorem lowEnd_le_of_holds (h : (interval x).holds d = true) : (interval x).lowEnd ≤ d.value := by
  rw [Interval.holds_iff (den_interval_pos x)] at h
  split at h
  · exact h.1
  · exact h.1.le

theorem le_highEnd_of_holds (h : (interval x).holds d = true) : d.value ≤ (interval x).highEnd := by
  rw [Interval.holds_iff (den_interval_pos x)] at h
  split at h
  · exact h.2
  · exact h.2.le

/-- Only the value of a decimal counts. -/
theorem holds_congr (hvalue : d.value = e.value) (h : (interval x).holds d = true) :
    (interval x).holds e = true := by
  rw [Interval.holds_iff (den_interval_pos x)] at h ⊢
  rw [← hvalue]
  exact h

/-- Where an end belongs to an interval, the significand is even. -/
theorem even_of_holds_end (h : (interval x).holds d = true)
    (hend : d.value = (interval x).lowEnd ∨ d.value = (interval x).highEnd) :
    x.significand % 2 = 0 := by
  rw [Interval.holds_iff (den_interval_pos x), closed_interval] at h
  by_contra hodd
  rw [if_neg (by simpa using hodd)] at h
  cases hend with
  | inl hlow => exact h.1.ne' hlow
  | inr hhigh => exact h.2.ne hhigh

theorem not_holds_of_lt (h : x.magnitude < y.magnitude) (hx : (interval x).holds d = true)
    (hy : (interval y).holds d = true) : False := by
  have hlow := lowEnd_le_of_holds hy
  have hhigh := le_highEnd_of_holds hx
  by_cases hsucc : y.magnitude = x.magnitude + 1
  · -- the decimal is the point where the two intervals meet
    have hmeet := lowEnd_of_succ hsucc
    have hevenx := even_of_holds_end hx (.inr (le_antisymm hhigh (hmeet ▸ hlow)))
    have heveny := even_of_holds_end hy (.inl (le_antisymm (hmeet ▸ hhigh) hlow))
    rw [significand_mod_two] at hevenx heveny
    omega
  · exact absurd (hlow.trans hhigh) (not_le.mpr (highEnd_lt_lowEnd (by omega)))

/-- No decimal lies in the rounding intervals of two magnitudes. -/
theorem magnitude_eq_of_holds (hx : (interval x).holds d = true)
    (hy : (interval y).holds d = true) : x.magnitude = y.magnitude := by
  rcases Nat.lt_trichotomy x.magnitude y.magnitude with h | h | h
  · exact (not_holds_of_lt h hx hy).elim
  · exact h
  · exact (not_holds_of_lt h hy hx).elim

end Unique

end Polydoc.Binary64
