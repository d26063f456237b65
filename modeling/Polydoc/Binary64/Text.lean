/-
  Binary64/Text.lean --- how numbers are written, given their shortest digits.

  Every way of writing is one `Layout`: between which powers of ten the digits are written
  positionally, what an exponent looks like, whether a whole number keeps `.0`, and the words for
  what is not finite.
-/
import Polydoc.Binary64.Shortest

set_option autoImplicit false

namespace Polydoc

namespace Binary64

/-- A way of writing numbers. -/
structure Layout where
  /-- The least and the greatest power of ten of the first digit that are written positionally;
  without bounds there is never an exponent. -/
  positional : Option (Int × Int)
  /-- Whether a whole number in positional form ends in `.0`. -/
  keepPoint : Bool
  /-- Whether a positive exponent has a sign. -/
  plus : Bool
  tie : Tie
  nan : String
  /-- What stands for positive and for negative infinity. -/
  infinity : String × String

/-- The decimal digits of `n`. -/
def digitsOf (n : Nat) : List Char := Nat.toDigits 10 n

/-- `digits * 10 ^ exponent` without an exponent. -/
def positionalText (keepPoint : Bool) (digits : List Char) (exponent : Int) : List Char :=
  if 0 ≤ exponent then
    digits ++ List.replicate exponent.toNat '0' ++ (if keepPoint then ['.', '0'] else [])
  else
    let places := (-exponent).toNat
    if places < digits.length then
      digits.take (digits.length - places) ++ '.' :: digits.drop (digits.length - places)
    else ['0', '.'] ++ List.replicate (places - digits.length) '0' ++ digits

/-- `digits * 10 ^ exponent` with one digit before the point and an exponent. -/
def scientificText (plus : Bool) (digits : List Char) (exponent : Int) : List Char :=
  let power := exponent + (digits.length : Int) - 1
  let mantissa :=
    match digits with
    | [d] => [d]
    | d :: ds => d :: '.' :: ds
    | [] => []
  let sign := if power < 0 then ['-'] else if plus then ['+'] else []
  mantissa ++ 'e' :: sign ++ digitsOf power.natAbs

/-- A finite number, sign apart. -/
def Layout.magnitudeText (l : Layout) (x : Binary64) : List Char :=
  if x.isZero then if l.keepPoint then ['0', '.', '0'] else ['0']
  else
    let d := x.shortest l.tie
    let digits := digitsOf d.digits
    let power := d.exponent + (digits.length : Int) - 1
    match l.positional with
    | none => positionalText l.keepPoint digits d.exponent
    | some (low, high) =>
      if low ≤ power ∧ power ≤ high then positionalText l.keepPoint digits d.exponent
      else scientificText l.plus digits d.exponent

/-- The text of a number. -/
def Layout.write (l : Layout) (x : Binary64) : String :=
  if x.isNaN then l.nan
  else if !x.isFinite then if x.negative then l.infinity.2 else l.infinity.1
  else String.ofList ((if x.negative then ['-'] else []) ++ l.magnitudeText x)

/-- Digits as they are read by people: never an exponent, and a whole number without a point. -/
def plain : Layout where
  positional := none
  keepPoint := false
  plus := false
  tie := .up
  nan := "NaN"
  infinity := ("inf", "-inf")

end Binary64

end Polydoc
