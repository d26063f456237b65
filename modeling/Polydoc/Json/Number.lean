/-
  Json/Number.lean --- numbers in JSON text.

  A number without fraction and exponent that 64 bits hold is an integer.  Any other number becomes
  a float in a fixed sequence of roundings: as many leading digits as an unsigned 64-bit integer
  holds are rounded to a float, which is then multiplied by, or divided by, a power of ten that is
  itself rounded.  For numbers of few digits this is the nearest float.
-/
import Polydoc.Scalar
import Polydoc.Text.Digit

set_option autoImplicit false

namespace Polydoc

namespace Json

/-- The greatest unsigned 64-bit integer. -/
def maxWord : Nat := 2 ^ 64 - 1

/-- Digits taken one after another as long as a word holds the result: the result, and how many
digits were left out.  Once one is left out, so are all behind it. -/
def takeDigits (start : Nat) : List Char → Nat × Nat
  | [] => (start, 0)
  | c :: rest =>
    let next := 10 * start + Text.digitValue c
    if next ≤ maxWord then takeDigits next rest else (start, rest.length + 1)

/-- The written parts of a number without its sign. -/
structure Parts where
  whole : List Char
  /-- the digits behind the point -/
  fraction : Option (List Char)
  /-- the sign and the digits of the exponent -/
  exponent : Option (Bool × List Char)
  deriving Repr

/-- The power of ten, rounded to a float. -/
def powerOfTen (n : Nat) : Binary64 := Binary64.ofDecimal false 1 n

/-- A positive float times a power of ten.  Powers of more than 308 places are applied in portions
as far as they make the number smaller; too large a result is none. -/
def scaled (x : Binary64) (exponent : Int) : Option Binary64 :=
  if exponent.natAbs ≤ 308 then
    if 0 ≤ exponent then
      let y := x.mul (powerOfTen exponent.natAbs)
      if y.isFinite then some y else none
    else some (x.div (powerOfTen exponent.natAbs))
  else if x.isZero then some x
  else if 0 ≤ exponent then none
  else scaled (x.div (powerOfTen 308)) (exponent + 308)
termination_by exponent.natAbs

/-- The greatest exponent that is looked at digit by digit. -/
def maxExponent : Nat := 2 ^ 31 - 1

/-- The size of a number that is not an integer of 64 bits. -/
def Parts.magnitude (p : Parts) : Option Binary64 :=
  let (lead, skipped) := takeDigits 0 p.whole
  let fraction := p.fraction.getD []
  let (digits, unused) := takeDigits lead fraction
  let shift : Int := (skipped : Int) - ((fraction.length - unused : Nat) : Int)
  match p.exponent with
  | none => scaled (Binary64.ofInt digits) shift
  | some (negative, exponent) =>
    let e := Text.natOfDigits exponent
    if maxExponent < e then
      if digits = 0 ∨ negative then some Binary64.zero else none
    else scaled (Binary64.ofInt digits) (if negative then shift - e else shift + e)

/-- The value of a number.  The negative zero is a float. -/
def Parts.value (negative : Bool) (p : Parts) : Option Scalar :=
  let asFloat := p.magnitude.map fun x => Scalar.float (if negative then x.neg else x)
  match p.fraction, p.exponent with
  | none, none =>
    let n : Int := Text.natOfDigits p.whole
    let n := if negative then -n else n
    if negative ∧ n = 0 then asFloat
    else if -2 ^ 63 ≤ n ∧ n < 2 ^ 63 then some (.integer (Int64.ofInt n))
    else asFloat
  | _, _ => asFloat

/-! ## Reading -/

/-- The digits in front, at least one, and the rest. -/
def digits (cs : List Char) : Option (List Char × List Char) :=
  match cs.takeWhile Char.isDigit with
  | [] => none
  | ds => some (ds, cs.dropWhile Char.isDigit)

/-- The whole part of a number: a single zero, or digits that start with another one. -/
def wholePart : List Char → Option (List Char × List Char)
  | '0' :: rest => some (['0'], rest)
  | cs => digits cs

/-- The digits behind a point, if there is one. -/
def fractionPart : List Char → Option (Option (List Char) × List Char)
  | '.' :: rest => (digits rest).map fun (ds, rest) => (some ds, rest)
  | cs => some (none, cs)

/-- The exponent, if there is one. -/
def exponentPart (cs : List Char) : Option (Option (Bool × List Char) × List Char) :=
  match cs with
  | c :: rest =>
    if c = 'e' ∨ c = 'E' then
      match rest with
      | '-' :: rest => (digits rest).map fun (ds, rest) => (some (true, ds), rest)
      | '+' :: rest => (digits rest).map fun (ds, rest) => (some (false, ds), rest)
      | rest => (digits rest).map fun (ds, rest) => (some (false, ds), rest)
    else some (none, cs)
  | [] => some (none, [])

/-- The number in front of a text, after its sign. -/
def unsignedNumber (negative : Bool) (cs : List Char) : Option (Scalar × List Char) := do
  let (whole, cs) ← wholePart cs
  let (fraction, cs) ← fractionPart cs
  let (exponent, cs) ← exponentPart cs
  let value ← Parts.value negative ⟨whole, fraction, exponent⟩
  return (value, cs)

/-- The number in front of a text. -/
def number : List Char → Option (Scalar × List Char)
  | '-' :: rest => unsignedNumber true rest
  | cs => unsignedNumber false cs

end Json

end Polydoc
