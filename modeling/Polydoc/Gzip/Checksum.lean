/-
  Gzip/Checksum.lean --- the cyclic redundancy check of gzip, of 32 bits, lowest bit first.
-/
set_option autoImplicit false

namespace Polydoc

namespace Gzip

/-- Divides by the polynomial, one bit. -/
def checksumBit (r : UInt32) : UInt32 :=
  if r &&& 1 = 1 then (r >>> 1) ^^^ 0xEDB88320 else r >>> 1

/-- Takes an octet into the remainder. -/
def checksumOctet (r : UInt32) (b : UInt8) : UInt32 :=
  (checksumBit ∘ checksumBit ∘ checksumBit ∘ checksumBit ∘ checksumBit ∘ checksumBit ∘ checksumBit
    ∘ checksumBit) (r ^^^ b.toUInt32)

/-- The check value of octets. -/
def checksum (octets : List UInt8) : UInt32 :=
  octets.foldl checksumOctet 0xFFFFFFFF ^^^ 0xFFFFFFFF

end Gzip

end Polydoc
