/-
  Proofs/Json/Scalars.lean --- texts and integers are read as they were written.

  A text is read back character by character, whatever stands behind its closing quote.  An integer
  has no mark at its end: it is read back if what stands behind it cannot be taken for a part of it.
-/
import Polydoc.Json.Reader
import Polydoc.Json.Writer
import Polydoc.Proofs.Text.Decimal

set_option autoImplicit false

namespace Polydoc

namespace Json

/-! ## Texts -/

theorem hexValue?_digitChar : ∀ d < 16, Text.hexValue? (Nat.digitChar d) = some d := by
  decide

/-- The four digits of a control character. -/
theorem hexWord?_control {n : Nat} (h : n < 0x20) :
    hexWord? '0' '0' (hexDigit (n / 16)) (hexDigit (n % 16)) = some n := by
  have hzero : Text.hexValue? '0' = some 0 := by decide
  have hhigh := hexValue?_digitChar (n / 16) (by omega)
  have hlow := hexValue?_digitChar (n % 16) (by omega)
  simp only [hexWord?, hexDigit, hzero, hhigh, hlow, Option.bind_eq_bind, Option.bind_some,
    Option.pure_def, Option.some.injEq]
  omega

/-- The character behind a backslash, other than the one that announces digits. -/
theorem text_escape {c d : Char} (hc : c ≠ 'u') (h : escaped? c = some d) (rest : List Char) :
    text ('\\' :: c :: rest) = prepend d (text rest) := by
  rw [text, h]
  intro _ _ _ _ _ hu
  exact absurd hu hc

theorem text_plain {c : Char} (hquote : c ≠ '"') (hslash : c ≠ '\\') (hcontrol : ¬ c.toNat < 0x20)
    (rest : List Char) : text (c :: rest) = prepend c (text rest) := by
  rw [text, if_neg (not_or.mpr ⟨hslash, hcontrol⟩)]
  · exact hquote
  · intro _ _ _ _ _ h
    exact absurd h hslash
  · intro _ _ h
    exact absurd h hslash

theorem text_control {c : Char} (h : c.toNat < 0x20) (rest : List Char) :
    text ('\\' :: 'u' :: '0' :: '0' :: hexDigit (c.toNat / 16) :: hexDigit (c.toNat % 16) :: rest) =
      prepend c (text rest) := by
  have hlow : isLowSurrogate c.toNat = false := by
    simp only [isLowSurrogate, Bool.and_eq_false_iff, decide_eq_false_iff_not]
    omega
  have hhigh : isHighSurrogate c.toNat = false := by
    simp only [isHighSurrogate, Bool.and_eq_false_iff, decide_eq_false_iff_not]
    omega
  rw [text, hexWord?_control h]
  simp only [hlow, hhigh, Bool.false_eq_true, if_false, Char.ofNat_toNat]

/-- One character is read as it was written. -/
theorem text_quotedChar (c : Char) (rest : List Char) :
    text (quotedChar c ++ rest) = prepend c (text rest) := by
  by_cases hletter : c = '"' ∨ c = '\\' ∨ c = '\x08' ∨ c = '\t' ∨ c = '\n' ∨ c = '\x0c' ∨ c = '\r'
  · -- a quote, a backslash, or a control character with a letter of its own
    rcases hletter with rfl | rfl | rfl | rfl | rfl | rfl | rfl <;>
      exact text_escape (by decide) rfl rest
  · simp only [not_or] at hletter
    obtain ⟨hquote, hslash, hback, htab, hline, hfeed, hreturn⟩ := hletter
    rw [quotedChar, if_neg hquote, if_neg hslash, if_neg hback, if_neg htab, if_neg hline,
      if_neg hfeed, if_neg hreturn]
    by_cases hcontrol : c.toNat < 0x20
    · rw [if_pos hcontrol]
      exact text_control hcontrol rest
    · rw [if_neg hcontrol]
      exact text_plain hquote hslash hcontrol rest

/-- What stands between the quotes is read as the text that was written. -/
theorem text_flatMap_quotedChar (cs rest : List Char) :
    text (cs.flatMap quotedChar ++ '"' :: rest) = some (cs, rest) := by
  induction cs with
  | nil => rw [List.flatMap_nil, List.nil_append, text]
  | cons c cs ih =>
    rw [List.flatMap_cons, List.append_assoc, text_quotedChar, ih]
    rfl

/-! ## Integers -/

/-- What may stand behind a number: nothing that would belong to it. -/
def Ends (rest : List Char) : Prop :=
  ∀ c ∈ rest.head?, c.isDigit = false ∧ c ≠ '.' ∧ c ≠ 'e' ∧ c ≠ 'E'

section Integers

variable {ds rest : List Char}

theorem digits_append (hne : ds ≠ []) (hds : ∀ c ∈ ds, c.isDigit = true) (hrest : Ends rest) :
    digits (ds ++ rest) = some (ds, rest) := by
  have htake : rest.takeWhile Char.isDigit = [] := by
    cases rest with
    | nil => rfl
    | cons c cs => simp [(hrest c rfl).1]
  have hdrop : rest.dropWhile Char.isDigit = rest := by
    cases rest with
    | nil => rfl
    | cons c cs => simp [(hrest c rfl).1]
  unfold digits
  rw [List.takeWhile_append_of_pos hds, List.dropWhile_append_of_pos hds, htake, hdrop,
    List.append_nil]
  cases ds with
  | nil => exact absurd rfl hne
  | cons d ds => rfl

/-- The digits of a number start with a zero only if that is all of them. -/
theorem wholePart_toDigits (n : Nat) (hrest : Ends rest) :
    wholePart (Nat.toDigits 10 n ++ rest) = some (Nat.toDigits 10 n, rest) := by
  by_cases hn : n = 0
  · subst hn
    rfl
  · have hdigits := digits_append Nat.toDigits_ne_nil
      (fun _ hc => Text.isDigit_of_mem_toDigits (n := n) hc) hrest
    obtain ⟨d, ds, hd, -⟩ := Text.exists_cons_toDigits n
    have hzero : d ≠ '0' := fun h => Text.toDigits_ne_zero_cons hn ds (h ▸ hd)
    rw [wholePart]
    · exact hdigits
    · intro rest' h
      rw [hd] at h
      exact hzero (List.cons.inj h).1

theorem fractionPart_ends (hrest : Ends rest) : fractionPart rest = some (none, rest) := by
  cases rest with
  | nil => rfl
  | cons c cs =>
    rw [fractionPart]
    intro _ h
    exact (hrest c rfl).2.1 (List.cons.inj h).1

theorem exponentPart_ends (hrest : Ends rest) : exponentPart rest = some (none, rest) := by
  cases rest with
  | nil => rfl
  | cons c cs =>
    obtain ⟨_, _, hlower, hupper⟩ := hrest c rfl
    exact if_neg (not_or.mpr ⟨hlower, hupper⟩)

/-- The digits of a number, with a sign or without. -/
theorem unsignedNumber_toDigits {negative : Bool} {n : Nat} {s : Scalar}
    (hvalue : Parts.value negative ⟨Nat.toDigits 10 n, none, none⟩ = some s) (hrest : Ends rest) :
    unsignedNumber negative (Nat.toDigits 10 n ++ rest) = some (s, rest) := by
  simp only [unsignedNumber, wholePart_toDigits n hrest, fractionPart_ends hrest,
    exponentPart_ends hrest, hvalue, Option.bind_eq_bind, Option.bind_some, Option.pure_def]

theorem value_toDigits (i : Int64) :
    Parts.value (decide (i.toInt < 0)) ⟨Nat.toDigits 10 i.toInt.natAbs, none, none⟩ =
      some (.integer i) := by
  have hrange : -2 ^ 63 ≤ i.toInt ∧ i.toInt < 2 ^ 63 := ⟨i.le_toInt, i.toInt_lt⟩
  unfold Parts.value
  dsimp only
  rw [Text.natOfDigits_toDigits]
  by_cases hi : i.toInt < 0
  · have habs : -(i.toInt.natAbs : Int) = i.toInt := by omega
    have hzero : i.toInt ≠ 0 := by omega
    rw [decide_eq_true hi, if_pos rfl, habs, if_neg fun h => hzero h.2, if_pos hrange,
      Int64.ofInt_toInt]
  · have habs : (i.toInt.natAbs : Int) = i.toInt := by omega
    rw [decide_eq_false hi, if_neg Bool.false_ne_true, habs,
      if_neg fun h => Bool.false_ne_true h.1, if_pos hrange, Int64.ofInt_toInt]

/-- An integer is read as it was written. -/
theorem number_decimal (i : Int64) (hrest : Ends rest) :
    number ((Text.decimal i.toInt).toList ++ rest) = some (.integer i, rest) := by
  have hvalue := value_toDigits i
  rw [Text.decimal, String.toList_ofList]
  by_cases hi : i.toInt < 0
  · rw [decide_eq_true hi] at hvalue
    rw [if_pos hi]
    exact unsignedNumber_toDigits hvalue hrest
  · rw [decide_eq_false hi] at hvalue
    rw [if_neg hi, List.nil_append, number]
    · exact unsignedNumber_toDigits hvalue hrest
    · intro rest' h
      obtain ⟨d, ds, hd, hdigit⟩ := Text.exists_cons_toDigits i.toInt.natAbs
      rw [hd] at h
      rw [(List.cons.inj h).1] at hdigit
      cases hdigit

end Integers

end Json

end Polydoc
