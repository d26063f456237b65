/-
  Proofs/Binary64/Shortest.lean --- the search for the shortest decimal ends with a decimal that
  rounds to the number.

  The grids become finer by a factor of ten from one to the next.  On a grid finer than half the
  spacing of the numbers a neighbour of the value lies in the rounding interval, and the last grid
  that the search looks at is as fine as that, for the largest numbers and for the smallest.
-/
import Polydoc.Proofs.Binary64.Rounding

set_option autoImplicit false

namespace Polydoc.Binary64

/-! ## Looking at one grid -/

section Grid

variable {r : Interval} {tie : Tie} {d : Decimal} {exponent : ℤ}

/-- What is taken from a grid lies in the interval, and nothing is taken only where the upper
neighbour does not lie in it. -/
theorem onGrid_cases (r : Interval) (tie : Tie) (exponent : ℤ) :
    (r.onGrid tie exponent = none ∧ r.holds ⟨(r.floorAt exponent).1 + 1, exponent⟩ = false) ∨
      ∃ d, r.onGrid tie exponent = some d ∧ r.holds d = true := by
  unfold Interval.onGrid
  generalize r.floorAt exponent = found
  obtain ⟨q, rem, den⟩ := found
  dsimp only
  cases habove : r.holds ⟨q + 1, exponent⟩ with
  | false =>
    cases hbelow : q != 0 && r.holds ⟨q, exponent⟩ with
    | false => exact .inl ⟨rfl, rfl⟩
    | true => exact .inr ⟨_, rfl, (Bool.and_eq_true_iff.mp hbelow).2⟩
  | true =>
    refine .inr ?_
    cases hbelow : q != 0 && r.holds ⟨q, exponent⟩ with
    | false => exact ⟨_, rfl, habove⟩
    | true =>
      have hbelow' := (Bool.and_eq_true_iff.mp hbelow).2
      dsimp only
      split
      · exact ⟨_, rfl, hbelow'⟩
      split
      · exact ⟨_, rfl, habove⟩
      cases tie with
      | up => exact ⟨_, rfl, habove⟩
      | even =>
        dsimp only
        split
        · exact ⟨_, rfl, hbelow'⟩
        · exact ⟨_, rfl, habove⟩

/-- The value lies below its upper neighbour, by a step of the grid at most. -/
theorem floorAt_bounds (hden : 0 < r.den) (exponent : ℤ) :
    r.middle < Decimal.value ⟨(r.floorAt exponent).1 + 1, exponent⟩ ∧
      Decimal.value ⟨(r.floorAt exponent).1 + 1, exponent⟩ ≤ r.middle + 10 ^ exponent := by
  have hden' : (0 : ℚ) < r.den := by exact_mod_cast hden
  have hstep : (0 : ℚ) < 10 ^ exponent := by positivity
  -- the quotient of the value by a step, over natural numbers
  obtain ⟨n, s, hs, hquotient, hfloor⟩ : ∃ n s : ℕ, 0 < s ∧
      r.middle = (n : ℚ) / s * 10 ^ exponent ∧ (r.floorAt exponent).1 = n / s := by
    by_cases he : 0 ≤ exponent
    · refine ⟨r.value, r.den * 10 ^ exponent.toNat, by positivity, ?_, ?_⟩
      · rw [Interval.middle, zpow_of_nonneg he]
        push_cast
        field_simp
      · simp only [Interval.floorAt, he, if_true]
    · refine ⟨r.value * 10 ^ (-exponent).toNat, r.den, hden, ?_, ?_⟩
      · rw [Interval.middle, zpow_of_neg he]
        push_cast
        field_simp
      · simp only [Interval.floorAt, he, if_false]
  have hs' : (0 : ℚ) < s := by exact_mod_cast hs
  have hle : ((n / s : ℕ) : ℚ) ≤ n / s := by
    rw [le_div_iff₀ hs']
    exact_mod_cast Nat.div_mul_le_self n s
  have hlt : (n : ℚ) / s < ((n / s : ℕ) : ℚ) + 1 := by
    rw [div_lt_iff₀ hs']
    exact_mod_cast Nat.lt_mul_of_div_lt (Nat.lt_succ_self _) hs
  rw [hquotient, Decimal.value, hfloor, ← add_one_mul]
  push_cast
  constructor
  · exact mul_lt_mul_of_pos_right hlt hstep
  · exact mul_le_mul_of_nonneg_right (by linarith) hstep.le

/-- On a grid that is fine enough something is found. -/
theorem exists_onGrid (hden : 0 < r.den) (hlow : r.lowEnd < r.middle)
    (hfine : r.middle + 10 ^ exponent < r.highEnd) (tie : Tie) :
    ∃ d, r.onGrid tie exponent = some d ∧ r.holds d = true := by
  obtain ⟨hmiddle, hstep⟩ := floorAt_bounds hden exponent
  have habove : r.holds ⟨(r.floorAt exponent).1 + 1, exponent⟩ = true := by
    rw [Interval.holds_iff hden]
    split
    · exact ⟨(hlow.trans hmiddle).le, (hstep.trans_lt hfine).le⟩
    · exact ⟨hlow.trans hmiddle, hstep.trans_lt hfine⟩
  rcases onGrid_cases r tie exponent with ⟨-, hnot⟩ | hfound
  · rw [habove] at hnot
    cases hnot
  · exact hfound

/-- If the last grid is fine enough, the search ends with a decimal in the interval. -/
theorem exists_search {fuel : ℕ} (hden : 0 < r.den) (hlow : r.lowEnd < r.middle)
    (hfine : r.middle + 10 ^ (exponent - fuel) < r.highEnd) (tie : Tie) :
    ∃ d, r.search tie (fuel + 1) exponent = some d ∧ r.holds d = true := by
  induction fuel generalizing exponent with
  | zero =>
    rw [Nat.cast_zero, sub_zero] at hfine
    obtain ⟨d, hgrid, hd⟩ := exists_onGrid hden hlow hfine tie
    rw [Interval.search, hgrid]
    exact ⟨d, rfl, hd⟩
  | succ fuel ih =>
    rw [Interval.search]
    rcases onGrid_cases r tie exponent with ⟨hnone, -⟩ | ⟨d, hsome, hd⟩
    · rw [hnone]
      have hlast : exponent - 1 - (fuel : ℤ) = exponent - (fuel + 1 : ℕ) := by
        push_cast
        ring
      exact ih (hlast ▸ hfine)
    · rw [hsome]
      exact ⟨d, rfl, hd⟩

end Grid

/-! ## The last grid -/

/-- The exponent of the last grid that is looked at for a number with the exponent `e` and all the
bits that a significand can have. -/
def lastExponent (e : ℤ) : ℤ := (e + 53) * 1234 / 4096 - 23

/-- Three decimal places are a little less than ten binary ones. -/
theorem ten_pow_le (n : ℕ) : 10 ^ n ≤ 2 ^ (10 * (n / 3 + 1)) :=
  calc
    10 ^ n ≤ 10 ^ (3 * (n / 3 + 1)) := Nat.pow_le_pow_right (by decide) (by omega)
    _ = (10 ^ 3) ^ (n / 3 + 1) := Nat.pow_mul ..
    _ ≤ (2 ^ 10) ^ (n / 3 + 1) := Nat.pow_le_pow_left (by decide) _
    _ = 2 ^ (10 * (n / 3 + 1)) := (Nat.pow_mul ..).symm

/-- Twenty-eight decimal places are a little more than ninety-three binary ones. -/
theorem two_pow_le (n : ℕ) : 2 ^ (93 * (n / 28) + 3 * (n % 28)) ≤ 10 ^ n :=
  calc
    2 ^ (93 * (n / 28) + 3 * (n % 28)) = (2 ^ 93) ^ (n / 28) * (2 ^ 3) ^ (n % 28) := by
      rw [Nat.pow_add, Nat.pow_mul, Nat.pow_mul]
    _ ≤ (10 ^ 28) ^ (n / 28) * 10 ^ (n % 28) :=
      Nat.mul_le_mul (Nat.pow_le_pow_left (by decide) _) (Nat.pow_le_pow_left (by decide) _)
    _ = 10 ^ n := by rw [← Nat.pow_mul, ← Nat.pow_add, Nat.div_add_mod]

/-- The last grid is finer than half the spacing of the numbers. -/
theorem last_grid_fine {e : ℤ} (hlow : -1074 ≤ e) (hhigh : e ≤ 971) :
    (10 : ℚ) ^ lastExponent e < 2 ^ (e - 1) := by
  have hlast : lastExponent e = (e + 53) * 1234 / 4096 - 23 := rfl
  by_cases hk : 0 ≤ lastExponent e
  · have hten : (10 : ℚ) ^ (lastExponent e).toNat ≤
        2 ^ (10 * ((lastExponent e).toNat / 3 + 1)) := by
      exact_mod_cast ten_pow_le _
    rw [zpow_of_nonneg hk]
    refine hten.trans_lt ?_
    rw [← zpow_natCast]
    exact zpow_lt_zpow_right₀ one_lt_two (by omega)
  · set n := (-lastExponent e).toNat with hn
    have htwo : (2 : ℚ) ^ (93 * (n / 28) + 3 * (n % 28)) ≤ 10 ^ n := by
      exact_mod_cast two_pow_le n
    rw [zpow_of_neg hk, ← neg_sub, zpow_neg]
    refine inv_strictAnti₀ (by positivity) (lt_of_lt_of_le ?_ htwo)
    rw [← zpow_natCast]
    exact zpow_lt_zpow_right₀ one_lt_two (by omega)

/-! ## The shortest decimal -/

section Number

variable {x : Binary64}

theorem significand_lt (x : Binary64) : x.significand < 2 ^ 53 := by
  unfold significand fraction
  split <;> omega

theorem exponent_bounds (hx : x.isFinite = true) : -1074 ≤ x.exponent ∧ x.exponent ≤ 971 := by
  have hbiased : x.biased < 2 ^ 11 := Nat.mod_lt _ (by decide)
  have hfinite : x.biased ≠ 0x7FF := by simpa [isFinite] using hx
  unfold exponent
  omega

/-- The search starts low enough for its last grid to be fine. -/
theorem startExponent_le (x : Binary64) : startExponent x - (24 : ℕ) ≤ lastExponent x.exponent := by
  have hlog : x.significand.log2 < 53 := by
    by_cases hzero : x.significand = 0
    · rw [hzero]
      decide
    · exact (Nat.log2_lt hzero).mpr (significand_lt x)
  unfold startExponent lastExponent
  dsimp only
  omega

theorem exists_search_interval (hx : x.isFinite = true) (hzero : x.significand ≠ 0) (tie : Tie) :
    ∃ d, (interval x).search tie 25 (startExponent x) = some d ∧ (interval x).holds d = true := by
  obtain ⟨hlow, hhigh⟩ := exponent_bounds hx
  refine exists_search (den_interval_pos x) (lowEnd_lt_middle x hzero) ?_ tie
  have hgrid : (10 : ℚ) ^ (startExponent x - (24 : ℕ)) ≤ 10 ^ lastExponent x.exponent :=
    zpow_le_zpow_right₀ (by norm_num) (startExponent_le x)
  have hfine := last_grid_fine hlow hhigh
  obtain ⟨-, hmiddle, hend⟩ := interval_ends x
  have hspacing : (interval x).middle + 2 ^ (x.exponent - 1) = (interval x).highEnd := by
    rw [hmiddle, hend, show x.exponent - 1 = x.exponent - 2 + 1 by ring,
      zpow_add_one₀ two_ne_zero]
    push_cast
    ring
  rw [← hspacing]
  linarith

/-- Zeros at the end of the digits do not count. -/
theorem Decimal.value_strip (fuel : ℕ) (d : Decimal) : (d.strip fuel).value = d.value := by
  induction fuel generalizing d with
  | zero => rfl
  | succ fuel ih =>
    rw [Decimal.strip]
    split
    · next hdigits =>
      rw [ih, Decimal.value, Decimal.value]
      have hsplit : (d.digits : ℚ) = (d.digits / 10 : ℕ) * 10 := by
        exact_mod_cast (Nat.div_mul_cancel (Nat.dvd_of_mod_eq_zero hdigits.2)).symm
      rw [zpow_add_one₀ (by norm_num), hsplit]
      ring
    · rfl

/-- The shortest decimal rounds to the number. -/
theorem holds_shortest (hx : x.isFinite = true) (hzero : x.significand ≠ 0) (tie : Tie) :
    (interval x).holds (x.shortest tie) = true := by
  obtain ⟨d, hsearch, hd⟩ := exists_search_interval hx hzero tie
  have hshortest : x.shortest tie = d.strip 400 := by
    delta shortest
    simp only [hsearch]
  rw [hshortest]
  exact holds_congr (Decimal.value_strip 400 d).symm hd

end Number

end Polydoc.Binary64
