/-
  Binary64/Shortest.lean --- the fewest decimal digits that read back as the same number.

  The reals that round to a finite number `x` form an interval around its value, ends included
  exactly when the significand of `x` is even.  A decimal of `n` digits in the interval exists
  exactly when one of the two neighbours of the value on the grid of `n`-digit decimals lies in it,
  so the search looks at two candidates for each `n`.
-/
import Polydoc.Binary64.Basic

set_option autoImplicit false

namespace Polydoc

namespace Binary64

/-- A positive decimal `digits * 10 ^ exponent`. -/
structure Decimal where
  digits : Nat
  exponent : Int
  deriving DecidableEq, Repr

/-- Which of two equally near decimals is taken. -/
inductive Tie where
  /-- the one whose last digit is even -/
  | even
  /-- the greater one -/
  | up
  deriving DecidableEq, Repr

/-- The reals that round to `x`, as integers over the common denominator `den`: the interval from
`low` to `high` around `value`. -/
structure Interval where
  low : Nat
  value : Nat
  high : Nat
  den : Nat
  closed : Bool

/-- The rounding interval of a positive finite number.  Below a power of two the doubles lie twice
as dense as above it. -/
def interval (x : Binary64) : Interval :=
  let m := x.significand
  let e := x.exponent
  let narrow : Bool := x.fraction = 0 && 1 < x.biased
  -- in units of `2 ^ (e - 2)`
  let low := if narrow then 4 * m - 1 else 4 * m - 2
  let high := 4 * m + 2
  let e' := e - 2
  if 0 ≤ e' then
    let s := 2 ^ e'.toNat
    ⟨low * s, 4 * m * s, high * s, 1, m % 2 = 0⟩
  else
    ⟨low, 4 * m, high, 2 ^ (-e').toNat, m % 2 = 0⟩

/-- Whether `digits * 10 ^ exponent` lies in the interval. -/
def Interval.holds (r : Interval) (d : Decimal) : Bool :=
  let (n, low, high) :=
    if 0 ≤ d.exponent then (d.digits * 10 ^ d.exponent.toNat * r.den, r.low, r.high)
    else
      let s := 10 ^ (-d.exponent).toNat
      (d.digits * r.den, r.low * s, r.high * s)
  if r.closed then low ≤ n && n ≤ high else low < n && n < high

/-- The greatest multiple of `10 ^ exponent` that is at most the value, and what is left over, as a
part of `10 ^ exponent`: the remainder and its denominator. -/
def Interval.floorAt (r : Interval) (exponent : Int) : Nat × Nat × Nat :=
  let (n, d) :=
    if 0 ≤ exponent then (r.value, r.den * 10 ^ exponent.toNat)
    else (r.value * 10 ^ (-exponent).toNat, r.den)
  (n / d, n % d, d)

/-- The nearest of the two neighbours of the value on the grid of multiples of `10 ^ exponent` that
lie in the interval. -/
def Interval.onGrid (r : Interval) (tie : Tie) (exponent : Int) : Option Decimal :=
  let (q, rem, d) := r.floorAt exponent
  let below : Decimal := ⟨q, exponent⟩
  let above : Decimal := ⟨q + 1, exponent⟩
  match q != 0 && r.holds below, r.holds above with
  | false, false => none
  | true, false => some below
  | false, true => some above
  | true, true =>
    if 2 * rem < d then some below
    else if d < 2 * rem then some above
    else
      match tie with
      | .up => some above
      | .even => if q % 2 = 0 then some below else some above

/-- The first hit on the grids from `exponent` down, at most `fuel` of them. -/
def Interval.search (r : Interval) (tie : Tie) : Nat → Int → Option Decimal
  | 0, _ => none
  | fuel + 1, exponent =>
    match r.onGrid tie exponent with
    | some d => some d
    | none => r.search tie fuel (exponent - 1)

/-- An exponent of ten that is at least that of the value: `log₁₀ 2` is a little less than
`1234 / 4096`. -/
def startExponent (x : Binary64) : Int :=
  let top := (x.significand.log2 : Int) + x.exponent + 1
  top * 1234 / 4096 + 1

/-- Moves the zeros at the end of the digits into the exponent. -/
def Decimal.strip : Nat → Decimal → Decimal
  | 0, d => d
  | fuel + 1, d =>
    if d.digits ≠ 0 ∧ d.digits % 10 = 0 then strip fuel ⟨d.digits / 10, d.exponent + 1⟩ else d

/-- The shortest decimal that reads back as the positive finite number `x`, of several the nearest. -/
def shortest (tie : Tie) (x : Binary64) : Decimal :=
  match (interval x).search tie 25 (startExponent x) with
  | some d => d.strip 400
  | none => ⟨x.significand, x.exponent⟩

end Binary64

end Polydoc
