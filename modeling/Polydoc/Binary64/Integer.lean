/-
  Binary64/Integer.lean --- doubles compared with one another, taken apart into a whole part and a
  fraction, and turned into 64-bit integers.

  A number becomes an integer only if it is one and lies within the range.  That is asked of the
  number itself, before anything is cut off: the cast alone would cut off a fraction and take
  whatever is too large for the nearest end of the range.
-/
import Polydoc.Binary64.Basic

set_option autoImplicit false

namespace Polydoc

namespace Binary64

/-! ## Comparison -/

/-- The value as a multiple of the least positive number.  The infinities come out beyond all finite
numbers. -/
def units (x : Binary64) : Int :=
  let size : Nat := x.significand * 2 ^ (max x.biased 1 - 1)
  if x.negative then -size else size

/-- Whether `x ≤ y`; a NaN compares with nothing. -/
def le (x y : Binary64) : Bool :=
  !x.isNaN && !y.isNaN && decide (x.units ≤ y.units)

/-- Whether `x < y`; a NaN compares with nothing. -/
def lt (x y : Binary64) : Bool :=
  !x.isNaN && !y.isNaN && decide (x.units < y.units)

/-- Whether two numbers are equal as numbers: the two zeros are, and a NaN is equal to nothing. -/
def equals (x y : Binary64) : Bool :=
  !x.isNaN && !y.isNaN && decide (x.units = y.units)

/-! ## Whole part and fraction -/

/-- The value without its fraction. -/
def whole (x : Binary64) : Int :=
  let (num, den) := x.ratio
  if x.negative then -(num / den : Nat) else (num / den : Nat)

/-- The number less its whole part; a zero is positive. -/
def fract (x : Binary64) : Binary64 :=
  if x.isFinite then
    let (num, den) := x.ratio
    ofRatio (x.negative && num % den != 0) (num % den) den
  else nan

/-! ## 64-bit integers -/

/-- Whether a number is a whole one within the range of 64-bit integers.  The ends of the range are
compared as numbers: the number nearest to the greatest integer lies one beyond it. -/
def isIntegral (x : Binary64) : Bool :=
  x.isFinite && x.fract.equals zero && (ofInt Int64.minValue.toInt).le x &&
    x.lt (ofInt Int64.maxValue.toInt)

/-- The integer that a number is cast to: its whole part, or the nearest end of the range where that
lies outside; zero for a NaN. -/
def toInt64 (x : Binary64) : Int64 :=
  if x.isNaN then 0
  else Int64.ofInt (max Int64.minValue.toInt (min Int64.maxValue.toInt x.whole))

end Binary64

end Polydoc
