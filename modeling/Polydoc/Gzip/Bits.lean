/-
  Gzip/Bits.lean --- octets as bits, and numbers read from bits.

  An octet gives its lowest bit first, and so does a number.  The bits of a stream of octets are a
  multiple of eight, so that the length of what is left says where an octet starts.
-/
set_option autoImplicit false

namespace Polydoc

namespace Gzip

abbrev Bits := List Bool

namespace Bits

/-- The eight bits of an octet. -/
def ofOctet (b : UInt8) : Bits := (List.range 8).map fun i => b.toNat.testBit i

/-- The bits of octets. -/
def ofOctets (octets : List UInt8) : Bits := octets.flatMap ofOctet

/-- Reads a number of `n` bits. -/
def number? : Nat → Bits → Option (Nat × Bits)
  | 0, bits => some (0, bits)
  | _ + 1, [] => none
  | n + 1, b :: bits => (number? n bits).map fun (m, bits) => (b.toNat + 2 * m, bits)

/-- What is left from the next start of an octet on. -/
def align (bits : Bits) : Bits := bits.drop (bits.length % 8)

/-- Reads `n` octets. -/
def octets? : Nat → Bits → Option (List UInt8 × Bits)
  | 0, bits => some ([], bits)
  | n + 1, bits =>
    match number? 8 bits with
    | none => none
    | some (b, bits) => (octets? n bits).map fun (bs, bits) => (UInt8.ofNat b :: bs, bits)

theorem length_of_number? {n m : Nat} {bits rest : Bits} (h : number? n bits = some (m, rest)) :
    rest.length + n = bits.length := by
  induction n generalizing m bits with
  | zero =>
    simp only [number?, Option.some.injEq, Prod.mk.injEq] at h
    simp [h.2]
  | succ n ih =>
    cases bits with
    | nil => simp [number?] at h
    | cons b bits =>
      simp only [number?, Option.map_eq_some_iff, Prod.exists, Prod.mk.injEq] at h
      obtain ⟨_, _, h, _, rfl⟩ := h
      have := ih h
      simp only [List.length_cons]
      omega

theorem length_align_le (bits : Bits) : (align bits).length ≤ bits.length := by
  simp [align]

theorem length_of_octets? {n : Nat} {bits rest : Bits} {bs : List UInt8}
    (h : octets? n bits = some (bs, rest)) : rest.length + 8 * n = bits.length := by
  induction n generalizing bits bs with
  | zero =>
    simp only [octets?, Option.some.injEq, Prod.mk.injEq] at h
    simp [h.2]
  | succ n ih =>
    simp only [octets?] at h
    split at h
    · simp at h
    · next b mid hb =>
      simp only [Option.map_eq_some_iff, Prod.exists, Prod.mk.injEq] at h
      obtain ⟨bs', rest', hrest, _, rfl⟩ := h
      have := ih hrest
      have := length_of_number? hb
      omega

end Bits

end Gzip

end Polydoc
