/-
  Binary64/Basic.lean --- double precision numbers, by their 64 bits: a sign, eleven bits of
  exponent and 52 bits of significand.

  A finite number is read as an exact dyadic value, `significand * 2 ^ exponent` with a sign, and an
  exact quotient of natural numbers is rounded back to the nearest number, a tie going to the even
  significand.  Nothing here goes through machine floating point, so every fact about these numbers
  is a fact about natural numbers.
-/
set_option autoImplicit false

-- powers of numbers are those of the core library, whatever else is imported
attribute [instance (high), default_instance (high + 1)] instPowNat

namespace Polydoc

/-- A double precision number.  Two of them are the same when their bits are: the zeros differ, and
a NaN equals itself. -/
structure Binary64 where
  bits : UInt64
  deriving DecidableEq, Repr, Inhabited

namespace Binary64

/-! ## Fields -/

/-- The sign bit. -/
def negative (x : Binary64) : Bool :=
  x.bits.toNat / 2 ^ 63 = 1

/-- The eleven bits of the biased exponent. -/
def biased (x : Binary64) : Nat :=
  x.bits.toNat / 2 ^ 52 % 2 ^ 11

/-- The fifty-two bits after the leading one. -/
def fraction (x : Binary64) : Nat :=
  x.bits.toNat % 2 ^ 52

/-- All but the sign bit. -/
def magnitude (x : Binary64) : Nat :=
  x.bits.toNat % 2 ^ 63

/-- The number with the given sign and the given other bits. -/
def ofMagnitude (negative : Bool) (magnitude : Nat) : Binary64 :=
  ⟨UInt64.ofNat ((if negative then 2 ^ 63 else 0) + magnitude)⟩

def zero : Binary64 := ⟨0⟩

/-- The bits of positive infinity. -/
def infinityMagnitude : Nat := 0x7FF * 2 ^ 52

def infinity (negative : Bool) : Binary64 := ofMagnitude negative infinityMagnitude

/-- The NaN that arithmetic returns: quiet and without payload. -/
def nan : Binary64 := ofMagnitude false (infinityMagnitude + 2 ^ 51)

def isFinite (x : Binary64) : Bool := x.biased != 0x7FF

def isNaN (x : Binary64) : Bool := x.biased == 0x7FF && x.fraction != 0

def isZero (x : Binary64) : Bool := x.magnitude == 0

/-- The other sign. -/
def neg (x : Binary64) : Binary64 := ofMagnitude (!x.negative) x.magnitude

/-! ## Exact value of a finite number -/

/-- The integer factor of the value. -/
def significand (x : Binary64) : Nat :=
  if x.biased = 0 then x.fraction else x.fraction + 2 ^ 52

/-- The power of two that scales `significand`. -/
def exponent (x : Binary64) : Int :=
  (max x.biased 1 : Nat) - 1075

/-- The size of the value as a quotient of natural numbers. -/
def ratio (x : Binary64) : Nat × Nat :=
  if 0 ≤ x.exponent then (x.significand * 2 ^ x.exponent.toNat, 1)
  else (x.significand, 2 ^ (-x.exponent).toNat)

/-- The value, if it is an integer. -/
def toInt? (x : Binary64) : Option Int :=
  if x.isFinite then
    let (num, den) := x.ratio
    if num % den = 0 then
      some (if x.negative then -(num / den : Nat) else (num / den : Nat))
    else none
  else none

/-! ## Rounding -/

/-- The quotient rounded to the nearest natural number, a half going to the even one. -/
def divEven (num den : Nat) : Nat :=
  let q := num / den
  let r := num % den
  if 2 * r < den then q
  else if den < 2 * r then q + 1
  else q + q % 2

/-- The greatest `e` with `2 ^ e ≤ num / den`, for positive `num` and `den`. -/
def log2Ratio (num den : Nat) : Int :=
  let e : Int := (num.log2 : Int) - (den.log2 : Int)
  if 0 ≤ e then
    if den * 2 ^ e.toNat ≤ num then e else e - 1
  else
    if den ≤ num * 2 ^ (-e).toNat then e else e - 1

/-- The bits, sign apart, of the number nearest to `num / den`.  With the quotient taken at the
spacing `2 ^ e` of the doubles around it, the biased exponent and the fraction are one sum, which
carries by itself where rounding reaches the next power of two. -/
def roundMagnitude (num den : Nat) : Nat :=
  if num = 0 then 0
  else
    let e := max (log2Ratio num den - 52) (-1074)
    let q := if 0 ≤ e then divEven num (den * 2 ^ e.toNat) else divEven (num * 2 ^ (-e).toNat) den
    min ((e + 1074).toNat * 2 ^ 52 + q) infinityMagnitude

/-- The number nearest to `num / den` with the given sign: infinity where that is too large. -/
def ofRatio (negative : Bool) (num den : Nat) : Binary64 :=
  ofMagnitude negative (roundMagnitude num den)

/-- The number nearest to an integer. -/
def ofInt (i : Int) : Binary64 :=
  ofRatio (decide (i < 0)) i.natAbs 1

/-- The number nearest to `digits * 10 ^ exponent`. -/
def ofDecimal (negative : Bool) (digits : Nat) (exponent : Int) : Binary64 :=
  if 0 ≤ exponent then ofRatio negative (digits * 10 ^ exponent.toNat) 1
  else ofRatio negative digits (10 ^ (-exponent).toNat)

/-- The number nearest to `digits * 10 ^ exponent`, whatever the size of the exponent: the power of
ten is not worked out where the result is plainly zero or infinite. -/
def ofScientific (negative : Bool) (digits : Nat) (exponent : Int) : Binary64 :=
  let power := exponent + (Nat.toDigits 10 digits).length
  if digits = 0 ∨ power < -400 then ofMagnitude negative 0
  else if 400 < power then infinity negative
  else ofDecimal negative digits exponent

/-! ## Arithmetic on finite numbers -/

/-- The product, rounded once. -/
def mul (x y : Binary64) : Binary64 :=
  let (a, b) := x.ratio
  let (c, d) := y.ratio
  ofRatio (x.negative != y.negative) (a * c) (b * d)

/-- The quotient by a number that is not zero, rounded once. -/
def div (x y : Binary64) : Binary64 :=
  let (a, b) := x.ratio
  let (c, d) := y.ratio
  ofRatio (x.negative != y.negative) (a * d) (b * c)

end Binary64

end Polydoc
