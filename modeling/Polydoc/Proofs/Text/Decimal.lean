/-
  Proofs/Text/Decimal.lean --- the decimal digits of natural numbers.

  A number is spelled by its digits, which have no superfluous zero in front.
-/
import Polydoc.Text.Digit

set_option autoImplicit false

namespace Polydoc.Text

theorem natOfDigits_toDigits (n : Nat) : natOfDigits (Nat.toDigits 10 n) = n :=
  Nat.ofDigitChars_ten_toDigits

theorem isDigit_of_mem_toDigits {n : Nat} {c : Char} (h : c ∈ Nat.toDigits 10 n) :
    c.isDigit = true :=
  Nat.isDigit_of_mem_toDigits (by decide) (by decide) h

theorem exists_cons_toDigits (n : Nat) :
    ∃ d ds, Nat.toDigits 10 n = d :: ds ∧ d.isDigit = true := by
  obtain ⟨d, ds, h⟩ := List.exists_cons_of_ne_nil (Nat.toDigits_ne_nil (n := n) (b := 10))
  exact ⟨d, ds, h, isDigit_of_mem_toDigits (h ▸ List.mem_cons_self)⟩

/-- Only zero starts with a zero. -/
theorem toDigits_ne_zero_cons {n : Nat} (hn : n ≠ 0) (ds : List Char) :
    Nat.toDigits 10 n ≠ '0' :: ds := by
  induction n using Nat.strongRecOn generalizing ds with
  | _ n ih =>
    rw [Nat.toDigits_eq_if (by decide)]
    split
    · intro h
      exact hn (Nat.digitChar_eq_zero.mp (List.cons.inj h).1)
    · rename_i hlarge
      intro h
      obtain ⟨d, ds', hfirst, -⟩ := exists_cons_toDigits (n / 10)
      rw [hfirst, List.cons_append] at h
      refine ih (n / 10) (by omega) (by omega) ds' ?_
      rw [hfirst, (List.cons.inj h).1]

end Polydoc.Text
