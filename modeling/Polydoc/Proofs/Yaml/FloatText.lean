/-
  Proofs/Yaml/FloatText.lean --- the text of a float says which number it is.

  Whether it is written with an exponent or without, the text of a finite number is read as a
  decimal that rounds to the number.
-/
import Polydoc.Proofs.Binary64.Shortest
import Polydoc.Proofs.Text.Decimal
import Polydoc.Yaml.Resolve

set_option autoImplicit false

namespace Polydoc

namespace Text

/-! ## Digits in a row -/

theorem natOfDigits_append (ds es : List Char) :
    natOfDigits (ds ++ es) = natOfDigits ds * 10 ^ es.length + natOfDigits es := by
  induction es using List.reverseRecOn with
  | nil => simp [natOfDigits]
  | append_singleton es c ih =>
    rw [← List.append_assoc]
    simp only [natOfDigits, List.foldl_append, List.foldl_cons, List.foldl_nil,
      List.length_append, List.length_singleton] at ih ⊢
    rw [ih]
    ring

theorem natOfDigits_zeros (n : ℕ) : natOfDigits (List.replicate n '0') = 0 := by
  induction n with
  | zero => rfl
  | succ n ih =>
    rw [List.replicate_succ', natOfDigits_append, ih]
    rfl

theorem digit?_of_isDigit {c : Char} (h : c.isDigit = true) :
    digit? 10 c = some (digitValue c) := by
  have hlt : digitValue c < 10 := by
    simp only [Char.isDigit, Bool.and_eq_true, decide_eq_true_eq, ge_iff_le, UInt32.le_iff_toNat_le]
      at h
    unfold digitValue Char.toNat
    have h9 : '9'.val.toNat = 57 := rfl
    omega
  rw [digit?, hexValue?, if_pos h, Option.filter_some, if_pos (decide_eq_true hlt)]

/-- Of decimal digits, both ways of reading a number make the same. -/
theorem natOf?_of_digits {ds : List Char} (hne : ds ≠ []) (h : ∀ c ∈ ds, c.isDigit = true) :
    natOf? 10 ds = some (natOfDigits ds) := by
  have hfold (n : ℕ) : ds.foldlM (fun n c => (digit? 10 c).map (10 * n + ·)) n =
      some (ds.foldl (fun n c => 10 * n + digitValue c) n) := by
    clear hne
    induction ds generalizing n with
    | nil => rfl
    | cons c ds ih =>
      rw [List.foldlM_cons, digit?_of_isDigit (h c List.mem_cons_self)]
      exact ih (fun c hc => h c (List.mem_cons_of_mem _ hc)) _
  rw [natOf?, if_neg (by simpa using hne)]
  exact hfold 0

end Text

namespace Yaml

open Binary64

/-! ## Reading decimals -/

section Reading

variable {whole fraction tail : List Char}

theorem takeWhile_digits (hwhole : ∀ c ∈ whole, c.isDigit = true)
    (htail : ∀ c ∈ tail.head?, c.isDigit = false) :
    (whole ++ tail).takeWhile Char.isDigit = whole := by
  rw [List.takeWhile_append_of_pos hwhole]
  cases tail with
  | nil => rw [List.takeWhile_nil, List.append_nil]
  | cons c rest => rw [List.takeWhile_cons_of_neg (by simp [htail c rfl]), List.append_nil]

theorem dropWhile_digits (hwhole : ∀ c ∈ whole, c.isDigit = true)
    (htail : ∀ c ∈ tail.head?, c.isDigit = false) :
    (whole ++ tail).dropWhile Char.isDigit = tail := by
  rw [List.dropWhile_append_of_pos hwhole]
  cases tail with
  | nil => rfl
  | cons c rest => rw [List.dropWhile_cons_of_neg (by simp [htail c rfl])]

/-- What the exponent of a decimal is written as, its mark included. -/
def exponentText (power : ℤ) : List Char :=
  'e' :: (if power < 0 then ['-'] else []) ++ digitsOf power.natAbs

theorem forall_isDigit (n : ℕ) : ∀ c ∈ digitsOf n, c.isDigit = true :=
  fun _ hc => Text.isDigit_of_mem_toDigits hc

theorem natOf?_digitsOf (n : ℕ) : Text.natOf? 10 (digitsOf n) = some n := by
  have hne : digitsOf n ≠ [] := Nat.toDigits_ne_nil
  rw [Text.natOf?_of_digits hne (forall_isDigit n), digitsOf, Text.natOfDigits_toDigits]

/-- The digits of an exponent start with neither sign. -/
theorem exists_digitsOf (n : ℕ) : ∃ d ds, digitsOf n = d :: ds ∧ d ≠ '-' ∧ d ≠ '+' := by
  obtain ⟨d, ds, hds, hd⟩ := Text.exists_cons_toDigits n
  refine ⟨d, ds, hds, ?_, ?_⟩ <;> rintro rfl <;> cases hd

/-- The mantissa of a decimal with an exponent: a point stands only in front of further digits. -/
def mantissaText (whole fraction : List Char) : List Char :=
  if fraction = [] then whole else whole ++ '.' :: fraction

variable (hne : whole ≠ []) (hwhole : ∀ c ∈ whole, c.isDigit = true)
  (hfraction : ∀ c ∈ fraction, c.isDigit = true)

include hne hwhole hfraction

/-- Digits, a point, and digits. -/
theorem decimalOf?_point : decimalOf? (whole ++ '.' :: fraction) =
    some (Text.natOfDigits (whole ++ fraction), -(fraction.length : ℤ)) := by
  have hpoint : ∀ c ∈ ('.' :: fraction).head?, c.isDigit = false := by
    intro c hc
    cases hc
    rfl
  have hend : ∀ c ∈ ([] : List Char).head?, c.isDigit = false := fun c hc => by cases hc
  have htake := takeWhile_digits hfraction hend
  have hdrop := dropWhile_digits hfraction hend
  rw [List.append_nil] at htake hdrop
  simp [decimalOf?, takeWhile_digits hwhole hpoint, dropWhile_digits hwhole hpoint, htake, hdrop,
    hne]

/-- A mantissa and an exponent. -/
theorem decimalOf?_exponent (power : ℤ) :
    decimalOf? (mantissaText whole fraction ++ exponentText power) =
      some (Text.natOfDigits (whole ++ fraction), power - (fraction.length : ℤ)) := by
  have hmark : ∀ c ∈ (exponentText power).head?, c.isDigit = false := by
    intro c hc
    cases hc
    rfl
  have hpower := natOf?_digitsOf power.natAbs
  have hall : (digitsOf power.natAbs).all Char.isDigit = true :=
    List.all_eq_true.mpr (forall_isDigit _)
  obtain ⟨d, ds, hds, hminus, hplus⟩ := exists_digitsOf power.natAbs
  have hall' := hall
  have hpower' := hpower
  rw [hds] at hall' hpower'
  rw [List.all_cons] at hall'
  by_cases hnil : fraction = []
  · rw [mantissaText, if_pos hnil, hnil]
    simp only [decimalOf?, takeWhile_digits hwhole hmark, dropWhile_digits hwhole hmark]
    by_cases hneg : power < 0
    · simp [exponentText, hneg, hne, hpower, hall, abs_of_neg hneg]
    · simp [exponentText, hneg, hne, hds, hpower', hminus, hplus, hall', not_lt.mp hneg]
  · have hpoint : ∀ c ∈ ('.' :: (fraction ++ exponentText power)).head?, c.isDigit = false := by
      intro c hc
      cases hc
      rfl
    rw [mantissaText, if_neg hnil, List.append_assoc, List.cons_append]
    simp only [decimalOf?, takeWhile_digits hwhole hpoint, dropWhile_digits hwhole hpoint,
      takeWhile_digits hfraction hmark, dropWhile_digits hfraction hmark]
    by_cases hneg : power < 0
    · simp [exponentText, hneg, hne, hpower, hall, abs_of_neg hneg]
    · simp [exponentText, hneg, hne, hds, hpower', hminus, hplus, hall', not_lt.mp hneg]

end Reading

/-! ## Written numbers -/

theorem forall_isDigit_zeros (n : ℕ) : ∀ c ∈ List.replicate n '0', c.isDigit = true := by
  intro c hc
  rw [List.eq_of_mem_replicate hc]
  rfl

theorem forall_isDigit_append {ds es : List Char} (hds : ∀ c ∈ ds, c.isDigit = true)
    (hes : ∀ c ∈ es, c.isDigit = true) : ∀ c ∈ ds ++ es, c.isDigit = true :=
  fun c hc => (List.mem_append.mp hc).elim (hds c) (hes c)

/-- What is written without an exponent is read as a decimal of the same value. -/
theorem decimalOf?_positionalText (n : ℕ) (exponent : ℤ) :
    ∃ d : Decimal, decimalOf? (positionalText true (digitsOf n) exponent) =
        some (d.digits, d.exponent) ∧ d.value = Decimal.value ⟨n, exponent⟩ := by
  have hne : digitsOf n ≠ [] := Nat.toDigits_ne_nil
  have hspell : Text.natOfDigits (digitsOf n) = n := Text.natOfDigits_toDigits n
  unfold positionalText
  by_cases hwhole : 0 ≤ exponent
  · -- a whole number, with zeros behind the digits
    have hdigits := forall_isDigit_append (forall_isDigit n) (forall_isDigit_zeros exponent.toNat)
    have hzero : ∀ c ∈ ['0'], c.isDigit = true := forall_isDigit_zeros 1
    have hread := decimalOf?_point (List.append_ne_nil_of_left_ne_nil hne _) hdigits hzero
    rw [Text.natOfDigits_append, Text.natOfDigits_append, Text.natOfDigits_zeros, hspell,
      List.length_replicate] at hread
    rw [if_pos hwhole, if_pos rfl, hread]
    refine ⟨⟨n * 10 ^ exponent.toNat * 10, -1⟩, rfl, ?_⟩
    rw [Decimal.value, Decimal.value, zpow_of_nonneg hwhole, zpow_neg_one]
    push_cast
    field_simp
  have hexponent : -((-exponent).toNat : ℤ) = exponent := by omega
  rw [if_neg hwhole]
  dsimp only
  by_cases hplaces : (-exponent).toNat < (digitsOf n).length
  · -- a point among the digits
    rw [if_pos hplaces]
    obtain ⟨k, hk⟩ : ∃ k, (digitsOf n).length = k + (-exponent).toNat ∧ 0 < k :=
      ⟨(digitsOf n).length - (-exponent).toNat, by omega, by omega⟩
    rw [hk.1, Nat.add_sub_cancel]
    have hfront : (digitsOf n).take k ≠ [] :=
      fun h => (List.take_eq_nil_iff.mp h).elim hk.2.ne' hne
    have hback : ∀ c ∈ (digitsOf n).drop k, c.isDigit = true :=
      fun c hc => forall_isDigit n c (List.mem_of_mem_drop hc)
    have hread := decimalOf?_point hfront (fun c hc => forall_isDigit n c (List.mem_of_mem_take hc))
      hback
    rw [List.take_append_drop, hspell, List.length_drop, hk.1, Nat.add_sub_cancel_left] at hread
    exact ⟨⟨n, exponent⟩, by rw [hread, hexponent], rfl⟩
  · -- a zero in front of the point, and zeros behind it
    rw [if_neg hplaces, List.append_assoc]
    have hzero : ∀ c ∈ ['0'], c.isDigit = true := forall_isDigit_zeros 1
    have hread := decimalOf?_point (List.cons_ne_nil _ _) hzero
      (forall_isDigit_append (forall_isDigit_zeros ((-exponent).toNat - (digitsOf n).length))
        (forall_isDigit n))
    rw [Text.natOfDigits_append, Text.natOfDigits_append, Text.natOfDigits_zeros, hspell,
      List.length_append, List.length_replicate, Nat.sub_add_cancel (not_lt.mp hplaces), hexponent,
      Nat.zero_mul, Nat.zero_add, show Text.natOfDigits ['0'] = 0 from rfl, Nat.zero_mul,
      Nat.zero_add] at hread
    exact ⟨⟨n, exponent⟩, hread, rfl⟩

/-- What is written with an exponent is read as a decimal of the same value. -/
theorem decimalOf?_scientificText (n : ℕ) (exponent : ℤ) :
    decimalOf? (scientificText false (digitsOf n) exponent) = some (n, exponent) := by
  obtain ⟨d, ds, hds, -, -⟩ := exists_digitsOf n
  have htext : scientificText false (digitsOf n) exponent =
      mantissaText [d] ds ++ exponentText (exponent + ((digitsOf n).length : ℤ) - 1) := by
    rw [hds]
    cases ds with
    | nil => simp [scientificText, mantissaText, exponentText]
    | cons e es => simp [scientificText, mantissaText, exponentText]
  have hdigits := forall_isDigit n
  rw [hds] at hdigits
  have hspell : Text.natOfDigits ([d] ++ ds) = n := by
    rw [List.singleton_append, ← hds]
    exact Text.natOfDigits_toDigits n
  rw [htext, decimalOf?_exponent (List.cons_ne_nil _ _)
    (fun c hc => hdigits c (List.mem_singleton.mp hc ▸ List.mem_cons_self))
    (fun c hc => hdigits c (List.mem_cons_of_mem _ hc)), hspell, hds, List.length_cons]
  congr 2
  push_cast
  ring

/-! ## Finite numbers -/

section Finite

variable {x y : Binary64}

/-- Zero lies in the rounding interval of zero. -/
theorem holds_zero (hx : x.isZero = true) : (interval x).holds ⟨0, -1⟩ = true := by
  have hm := (significand_eq_zero_iff x).mpr hx
  obtain ⟨hlow, -, hhigh⟩ := interval_ends x
  rw [Interval.holds_iff (den_interval_pos x), closed_interval, hlow, hhigh, hm,
    if_pos (by decide), Decimal.value]
  constructor
  · simp
  · simp only [Nat.cast_zero, zero_mul]
    positivity

/-- The text of a finite number, sign apart, is read as a decimal that rounds to the number. -/
theorem decimalOf?_magnitudeText (hx : x.isFinite = true) :
    ∃ d : Decimal, decimalOf? (Value.layout.magnitudeText x) = some (d.digits, d.exponent) ∧
      (interval x).holds d = true := by
  unfold Layout.magnitudeText
  by_cases hzero : x.isZero = true
  · rw [if_pos hzero]
    exact ⟨⟨0, -1⟩, by decide, holds_zero hzero⟩
  rw [if_neg hzero]
  have hshort := holds_shortest hx (fun h => hzero ((significand_eq_zero_iff x).mp h))
    Value.layout.tie
  dsimp only [Value.layout]
  split
  · obtain ⟨d, hread, hvalue⟩ := decimalOf?_positionalText (x.shortest .even).digits
      (x.shortest .even).exponent
    exact ⟨d, hread, holds_congr hvalue.symm hshort⟩
  · exact ⟨x.shortest .even, decimalOf?_scientificText _ _, hshort⟩

end Finite

end Yaml

end Polydoc
