/-
  Toml/Number.lean --- integers and floats.

  An underscore may stand between two digits.  An integer has at most 64 bits, and a float is the
  number nearest to what is written.
-/
import Polydoc.Binary64.Basic
import Polydoc.Toml.Quoted
import Polydoc.Toml.Value

set_option autoImplicit false

namespace Polydoc

namespace Toml

/-- The digits in front, without the underscores between them, and the rest. -/
def moreDigits (isDigit : Char → Bool) : List Char → Option (List Char × List Char)
  | [] => some ([], [])
  | '_' :: c :: rest => if isDigit c then prepend c (moreDigits isDigit rest) else none
  | c :: rest => if isDigit c then prepend c (moreDigits isDigit rest) else some ([], c :: rest)

/-- At least one digit, and the rest. -/
def digits? (isDigit : Char → Bool) : List Char → Option (List Char × List Char)
  | [] => none
  | c :: rest => if isDigit c then prepend c (moreDigits isDigit rest) else none

/-- The digits of a decimal integer: a zero alone, or digits that start with another one. -/
def wholeDigits? : List Char → Option (List Char × List Char)
  | '0' :: rest => some (['0'], rest)
  | cs => digits? Char.isDigit cs

/-- An integer, if 64 bits hold it. -/
def integer? (n : Int) : Option Value :=
  if -2 ^ 63 ≤ n ∧ n < 2 ^ 63 then some (.integer (Int64.ofInt n)) else none

/-- A sign, if there is one, and the rest. -/
def sign : List Char → Bool × List Char
  | '-' :: rest => (true, rest)
  | '+' :: rest => (false, rest)
  | cs => (false, cs)

/-- Reads what follows the `e` of an exponent. -/
def exponentValue? (cs : List Char) : Option (Int × List Char) :=
  let (negative, cs) := sign cs
  (digits? Char.isDigit cs).map fun (digits, rest) =>
    let n : Int := Text.natOfDigits digits
    (if negative then -n else n, rest)

/-- Reads an exponent, if there is one. -/
def exponent? : List Char → Option (Option Int × List Char)
  | [] => some (none, [])
  | c :: rest =>
    if c = 'e' ∨ c = 'E' then (exponentValue? rest).map fun (e, rest) => (some e, rest)
    else some (none, c :: rest)

/-- Reads a fraction, if there is one. -/
def fraction? : List Char → Option (Option (List Char) × List Char)
  | '.' :: rest => (digits? Char.isDigit rest).map fun (digits, rest) => (some digits, rest)
  | cs => some (none, cs)

/-- A float, unless it is too large. -/
def float? (negative : Bool) (digits : Nat) (exponent : Int) : Option Value :=
  let x := Binary64.ofScientific negative digits exponent
  if x = Binary64.infinity false then none else some (.float x)

/-- Reads a decimal number behind its sign. -/
def decimal? (negative : Bool) (cs : List Char) : Option (Value × List Char) := do
  let (whole, cs) ← wholeDigits? cs
  let (fraction, cs) ← fraction? cs
  let (exponent, cs) ← exponent? cs
  let value ←
    match fraction, exponent with
    | none, none =>
      let n : Int := Text.natOfDigits whole
      integer? (if negative then -n else n)
    | _, _ =>
      let fraction := fraction.getD []
      float? negative (Text.natOfDigits (whole ++ fraction)) (exponent.getD 0 - fraction.length)
  return (value, cs)

/-- Reads a positive integer with another radix behind its mark. -/
def radixInteger? (radix : Nat) (cs : List Char) : Option (Value × List Char) := do
  let (digits, cs) ← digits? (fun c => (Text.digit? radix c).isSome) cs
  let n ← Text.natOf? radix digits
  let value ← integer? n
  return (value, cs)

/-- Reads a number behind its sign: digits, or a word for what is not finite. -/
def unsigned? (negative : Bool) : List Char → Option (Value × List Char)
  | 'i' :: 'n' :: 'f' :: rest => some (.float (Binary64.infinity negative), rest)
  | 'n' :: 'a' :: 'n' :: rest =>
    some (.float (if negative then Binary64.nan.neg else Binary64.nan), rest)
  | cs => decimal? negative cs

/-- Reads a number. -/
def number : List Char → Option (Value × List Char)
  | '0' :: 'x' :: rest => radixInteger? 16 rest
  | '0' :: 'o' :: rest => radixInteger? 8 rest
  | '0' :: 'b' :: rest => radixInteger? 2 rest
  | cs =>
    let (negative, cs) := sign cs
    unsigned? negative cs

end Toml

end Polydoc
