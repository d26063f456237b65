/-
  Gzip/Member.lean --- the gzip format: a header, a deflated stream, and a trailer that the octets
  of the stream are checked against.

  Only the first member counts, and whatever follows it is left alone.
-/
import Polydoc.Gzip.Inflate
import Polydoc.Gzip.Checksum

set_option autoImplicit false

namespace Polydoc

namespace Gzip

/-- The octets that every member starts with. -/
def magic : List UInt8 := [0x1F, 0x8B]

/-- Whether octets start like a member. -/
def isGzip (octets : List UInt8) : Bool := magic.isPrefixOf octets

/-- The number that octets spell, the lowest first. -/
def littleEndian : List UInt8 → Nat
  | [] => 0
  | b :: rest => b.toNat + 256 * littleEndian rest

/-! ## Header -/

/-- The octets of a name or a comment are at most that many. -/
def maxText : Nat := 65535

/-- What is left behind a field that ends with a zero. -/
def skipText? (octets : List UInt8) : Option (List UInt8) :=
  match octets.span (· ≠ 0) with
  | (text, _ :: rest) => if text.length ≤ maxText then some rest else none
  | (_, []) => none

/-- What is left behind a field that starts with its length. -/
def skipExtra? (octets : List UInt8) : Option (List UInt8) :=
  match octets with
  | a :: b :: rest =>
    let length := littleEndian [a, b]
    if length ≤ rest.length then some (rest.drop length) else none
  | _ => none

/-- What is left behind the check value of the header. -/
def skipCheck? (header : List UInt8) (octets : List UInt8) : Option (List UInt8) :=
  match octets with
  | a :: b :: rest =>
    if (checksum header).toNat % 65536 = littleEndian [a, b] then some rest else none
  | _ => none

/-- Applies a reader if a bit of the flags is set. -/
def skipIf (flags : UInt8) (bit : Nat) (skip : List UInt8 → Option (List UInt8))
    (octets : List UInt8) : Option (List UInt8) :=
  if flags.toNat.testBit bit then skip octets else some octets

/-- The octets behind the header. -/
def skipHeader? (octets : List UInt8) : Option (List UInt8) := do
  let fixed := octets.take 10
  let flags := fixed.getD 3 0
  if fixed.length < 10 ∨ fixed.take 3 ≠ magic ++ [8] ∨ 0x20 ≤ flags then none
  let rest ← skipIf flags 2 skipExtra? (octets.drop 10)
  let rest ← skipIf flags 3 skipText? rest
  let rest ← skipIf flags 4 skipText? rest
  let header := octets.take (octets.length - rest.length)
  skipIf flags 1 (skipCheck? header) rest

/-! ## Members -/

/-- Whether octets have the check value and the length, of which 32 bits count, of a trailer. -/
def agrees (octets trailer : List UInt8) : Bool :=
  littleEndian (trailer.take 4) = (checksum octets).toNat
    && littleEndian (trailer.drop 4) = octets.length % 2 ^ 32

/-- The octets that the first member holds. -/
def decompress? (octets : List UInt8) : Option (List UInt8) := do
  let body ← skipHeader? octets
  let (out, rest) ← inflate? (Bits.ofOctets body)
  let (trailer, _) ← rest.octets? 8
  if agrees out trailer then some out else none

end Gzip

end Polydoc
