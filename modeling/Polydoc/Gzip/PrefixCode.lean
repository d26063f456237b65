/-
  Gzip/PrefixCode.lean --- canonical prefix codes, as deflated streams use them.

  A code is given by the lengths of its code words alone: words of one length are consecutive
  numbers in the order of their symbols, and follow the shorter words.
-/
import Polydoc.Gzip.Bits

set_option autoImplicit false

namespace Polydoc

namespace Gzip

/-- A prefix code: the symbols of each length of code word from one bit up. -/
structure PrefixCode where
  symbols : List (List Nat)

namespace PrefixCode

/-- The greatest length of a code word. -/
def maxLength : Nat := 15

/-- How many of all sequences of `maxLength` bits start with a code word. -/
def covered : Nat → List (List Nat) → Nat
  | _, [] => 0
  | weight, level :: rest => level.length * weight + covered (weight / 2) rest

/-- The symbols with a code word of `length` bits. -/
def level (lengths : List Nat) (length : Nat) : List Nat :=
  (lengths.zipIdx.filter fun (n, _) => n = length).map Prod.snd

/-- The code with code words of the given lengths, one for each symbol from 0 up; a symbol with
length 0 has none. -/
def ofLengths (lengths : List Nat) : PrefixCode :=
  ⟨(List.range maxLength).map fun i => level lengths (i + 1)⟩

/-- Whether every long enough sequence of bits starts with exactly one code word. -/
def isComplete (code : PrefixCode) : Bool :=
  covered (2 ^ (maxLength - 1)) code.symbols = 2 ^ maxLength

/-- The number of code words. -/
def size (code : PrefixCode) : Nat := code.symbols.flatten.length

/-- Reads a code word.  Here `offset` is how far the bits read so far, as a number, lie beyond the
first word of their length. -/
def symbolFrom? : List (List Nat) → Nat → Bits → Option (Nat × Bits)
  | [], _, _ => none
  | _ :: _, _, [] => none
  | level :: deeper, offset, b :: bits =>
    let offset := 2 * offset + b.toNat
    match level[offset]? with
    | some symbol => some (symbol, bits)
    | none => symbolFrom? deeper (offset - level.length) bits

/-- Reads a code word and gives its symbol. -/
def symbol? (code : PrefixCode) (bits : Bits) : Option (Nat × Bits) :=
  symbolFrom? code.symbols 0 bits

theorem length_of_symbolFrom? {levels : List (List Nat)} {offset symbol : Nat} {bits rest : Bits}
    (h : symbolFrom? levels offset bits = some (symbol, rest)) : rest.length < bits.length := by
  induction levels generalizing offset bits with
  | nil => simp [symbolFrom?] at h
  | cons level deeper ih =>
    cases bits with
    | nil => simp [symbolFrom?] at h
    | cons b bits =>
      simp only [symbolFrom?] at h
      split at h
      · simp only [Option.some.injEq, Prod.mk.injEq] at h
        simp [h.2]
      · have := ih h
        simp only [List.length_cons]
        omega

/-- A code word has at least one bit. -/
theorem length_of_symbol? {code : PrefixCode} {symbol : Nat} {bits rest : Bits}
    (h : code.symbol? bits = some (symbol, rest)) : rest.length < bits.length :=
  length_of_symbolFrom? h

end PrefixCode

end Gzip

end Polydoc
