/-
  Proofs/Text/Utf8.lean --- octets that encode a text are decoded to that text.
-/
import Polydoc.Text.Utf8

set_option autoImplicit false

namespace Polydoc.Text

theorem isValidChar_toNat (c : Char) : c.toNat.isValidChar := c.valid

/-- The code point of a character, if its encoding is no longer than it must be. -/
theorem charFrom?_toNat {c : Char} (least : Nat) (h : least ≤ c.toNat) :
    charFrom? least c.toNat = some c := by
  rw [charFrom?, if_pos ⟨h, isValidChar_toNat c⟩, Char.ofNat_toNat]

theorem toNat_ofNat {n : Nat} (h : n < 256) : (UInt8.ofNat n).toNat = n := by
  rw [UInt8.toNat_ofNat', Nat.mod_eq_of_lt h]

/-- Six bits of a code point, as the octet that carries them. -/
theorem continuation?_ofNat {n : Nat} (h : n < 64) :
    continuation? (UInt8.ofNat (0x80 + n)) = some n := by
  rw [continuation?, toNat_ofNat (by omega), if_pos (by omega), Nat.add_sub_cancel_left]

theorem toNat_lt (c : Char) : c.toNat < 0x110000 := by
  have hvalid := isValidChar_toNat c
  unfold Nat.isValidChar at hvalid
  omega

/-- One character is decoded as it was encoded. -/
theorem decodeOnto_encodeChar (acc : List Char) (c : Char) (rest : List UInt8) :
    decodeOnto acc (encodeChar c ++ rest) = decodeOnto (c :: acc) rest := by
  have hlt := toNat_lt c
  generalize hn : c.toNat = n at hlt
  unfold encodeChar
  simp only [hn, Nat.pow_zero, Nat.div_one]
  by_cases h1 : n < 0x80
  · rw [if_pos h1, List.singleton_append, decodeOnto.eq_def]
    dsimp only
    rw [toNat_ofNat (by omega), if_pos h1, ← hn, Char.ofNat_toNat]
  by_cases h2 : n < 0x800
  · have hchar := charFrom?_toNat (c := c) 0x80 (by omega)
    have hjoin : (0xC0 + n / 64 - 0xC0) * 64 + n % 64 = c.toNat := by omega
    rw [if_neg h1, if_pos h2]
    simp only [List.cons_append, List.nil_append, decodeOnto]
    rw [toNat_ofNat (by omega), if_neg (by omega), if_neg (by omega), if_pos (by omega),
      continuation?_ofNat (by omega)]
    simp only [hjoin, hchar]
  by_cases h3 : n < 0x10000
  · have hchar := charFrom?_toNat (c := c) 0x800 (by omega)
    have hjoin : ((0xE0 + n / 4096 - 0xE0) * 64 + n / 2 ^ 6 % 64) * 64 + n % 64 = c.toNat := by
      omega
    rw [if_neg h1, if_neg h2, if_pos h3]
    simp only [List.cons_append, List.nil_append, decodeOnto]
    rw [toNat_ofNat (by omega), if_neg (by omega), if_neg (by omega), if_neg (by omega),
      if_pos (by omega), continuation?_ofNat (by omega), continuation?_ofNat (by omega)]
    simp only [hjoin, hchar]
  · have hchar := charFrom?_toNat (c := c) 0x10000 (by omega)
    have hjoin : (((0xF0 + n / 262144 - 0xF0) * 64 + n / 2 ^ 12 % 64) * 64 + n / 2 ^ 6 % 64) * 64 +
        n % 64 = c.toNat := by
      omega
    rw [if_neg h1, if_neg h2, if_neg h3]
    simp only [List.cons_append, List.nil_append, decodeOnto]
    rw [toNat_ofNat (by omega), if_neg (by omega), if_neg (by omega), if_neg (by omega),
      if_neg (by omega), if_pos (by omega), continuation?_ofNat (by omega),
      continuation?_ofNat (by omega), continuation?_ofNat (by omega)]
    simp only [hjoin, hchar]

theorem decodeOnto_encode (acc cs : List Char) :
    decodeOnto acc (encode cs) = some (acc.reverse ++ cs) := by
  induction cs generalizing acc with
  | nil => rw [encode, List.flatMap_nil, decodeOnto, List.append_nil]
  | cons c cs ih =>
    rw [encode, List.flatMap_cons, decodeOnto_encodeChar]
    rw [encode] at ih
    rw [ih, List.reverse_cons, List.append_assoc, List.singleton_append]

/-- Decoding undoes encoding. -/
theorem decode?_encode (cs : List Char) : decode? (encode cs) = some cs :=
  decodeOnto_encode [] cs

end Polydoc.Text
