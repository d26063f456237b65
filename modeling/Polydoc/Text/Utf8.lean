/-
  Text/Utf8.lean --- UTF-8: the octets of characters, and the text that octets encode.

  A character takes one to four octets, and the leading bits of the first one tell how many.  Every
  character has one encoding, the shortest; anything else is refused.
-/
set_option autoImplicit false

namespace Polydoc.Text

/-- The octets of a character. -/
def encodeChar (c : Char) : List UInt8 :=
  let n := c.toNat
  let tail (shift : Nat) : UInt8 := UInt8.ofNat (0x80 + n / 2 ^ shift % 64)
  if n < 0x80 then [UInt8.ofNat n]
  else if n < 0x800 then [UInt8.ofNat (0xC0 + n / 64), tail 0]
  else if n < 0x10000 then [UInt8.ofNat (0xE0 + n / 4096), tail 6, tail 0]
  else [UInt8.ofNat (0xF0 + n / 262144), tail 12, tail 6, tail 0]

/-- The octets of a text. -/
def encode (cs : List Char) : List UInt8 := cs.flatMap encodeChar

/-- Six bits of an octet that continues a character. -/
def continuation? (b : UInt8) : Option Nat :=
  let n := b.toNat
  if 0x80 ≤ n ∧ n < 0xC0 then some (n - 0x80) else none

/-- The character with a code point that needs at least `least` to be encoded as it was. -/
def charFrom? (least n : Nat) : Option Char :=
  if least ≤ n ∧ n.isValidChar then some (Char.ofNat n) else none

/-- The characters that octets encode, in front of `acc` in reverse order. -/
def decodeOnto (acc : List Char) : List UInt8 → Option (List Char)
  | [] => some acc.reverse
  | a :: rest =>
    let n := a.toNat
    if n < 0x80 then decodeOnto (Char.ofNat n :: acc) rest
    else if n < 0xC0 then none
    else if n < 0xE0 then
      match rest with
      | b :: rest =>
        match continuation? b with
        | some b =>
          match charFrom? 0x80 ((n - 0xC0) * 64 + b) with
          | some c => decodeOnto (c :: acc) rest
          | none => none
        | none => none
      | [] => none
    else if n < 0xF0 then
      match rest with
      | b :: c :: rest =>
        match continuation? b, continuation? c with
        | some b, some c =>
          match charFrom? 0x800 (((n - 0xE0) * 64 + b) * 64 + c) with
          | some c => decodeOnto (c :: acc) rest
          | none => none
        | _, _ => none
      | _ => none
    else if n < 0xF8 then
      match rest with
      | b :: c :: d :: rest =>
        match continuation? b, continuation? c, continuation? d with
        | some b, some c, some d =>
          match charFrom? 0x10000 ((((n - 0xF0) * 64 + b) * 64 + c) * 64 + d) with
          | some c => decodeOnto (c :: acc) rest
          | none => none
        | _, _, _ => none
      | _ => none
    else none

/-- The text that octets encode. -/
def decode? (octets : List UInt8) : Option (List Char) := decodeOnto [] octets

end Polydoc.Text
