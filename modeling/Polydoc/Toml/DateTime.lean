/-
  Toml/DateTime.lean --- dates, times of day, and both together.

  The parts of a date and a time are read as far as they go: a time behind a date that is none is
  left to what comes next.
-/
import Polydoc.Text.Digit

set_option autoImplicit false

namespace Polydoc

namespace Toml

/-- A day of the calendar. -/
structure Date where
  year : Nat
  month : Nat
  day : Nat
  deriving DecidableEq, Repr

/-- A time of day; a leap second has the number 60. -/
structure Time where
  hour : Nat
  minute : Nat
  second : Nat
  nanosecond : Nat
  deriving DecidableEq, Repr

/-- How far a local time is ahead of universal time. -/
inductive Offset where
  | universal
  | minutes (ahead : Int)
  deriving DecidableEq, Repr

inductive DateTime where
  | date (date : Date)
  | time (time : Time)
  | dateTime (date : Date) (time : Time) (offset : Option Offset)
  deriving DecidableEq, Repr

/-! ## Written form -/

/-- A number with zeros in front, up to `width` digits. -/
def padded (width n : Nat) : List Char :=
  let digits := Nat.toDigits 10 n
  List.replicate (width - digits.length) '0' ++ digits

def Date.chars (d : Date) : List Char :=
  padded 4 d.year ++ '-' :: padded 2 d.month ++ '-' :: padded 2 d.day

/-- The digits behind the point of a fraction of a second, without zeros at the end. -/
def fractionChars (nanosecond : Nat) : List Char :=
  ((padded 9 nanosecond).reverse.dropWhile (· = '0')).reverse

def Time.chars (t : Time) : List Char :=
  padded 2 t.hour ++ ':' :: padded 2 t.minute ++ ':' :: padded 2 t.second
    ++ (if t.nanosecond = 0 then [] else '.' :: fractionChars t.nanosecond)

def Offset.chars : Offset → List Char
  | .universal => ['Z']
  | .minutes ahead =>
    (if ahead < 0 then '-' else '+') :: padded 2 (ahead.natAbs / 60)
      ++ ':' :: padded 2 (ahead.natAbs % 60)

/-- The text of a date and time. -/
def DateTime.text : DateTime → String
  | .date d => String.ofList d.chars
  | .time t => String.ofList t.chars
  | .dateTime d t offset =>
    String.ofList (d.chars ++ 'T' :: t.chars ++ (offset.map Offset.chars).getD [])

/-! ## Reading -/

/-- Reads a number of exactly `width` digits that lies between two bounds. -/
def number? (width least greatest : Nat) (cs : List Char) : Option (Nat × List Char) :=
  let digits := cs.take width
  let n := Text.natOfDigits digits
  if digits.length = width ∧ digits.all Char.isDigit ∧ least ≤ n ∧ n ≤ greatest then
    some (n, cs.drop width)
  else none

/-- Reads one given character. -/
def mark? (c : Char) : List Char → Option (List Char)
  | [] => none
  | d :: rest => if d = c then some rest else none

def isLeapYear (year : Nat) : Bool := year % 4 = 0 && (year % 100 ≠ 0 || year % 400 = 0)

/-- How many days a month has. -/
def daysIn (year month : Nat) : Nat :=
  if month = 2 then if isLeapYear year then 29 else 28
  else if month = 4 ∨ month = 6 ∨ month = 9 ∨ month = 11 then 30
  else 31

/-- Reads a date. -/
def date? (cs : List Char) : Option (Date × List Char) := do
  let (year, cs) ← number? 4 0 9999 cs
  let cs ← mark? '-' cs
  let (month, cs) ← number? 2 1 12 cs
  let cs ← mark? '-' cs
  let (day, cs) ← number? 2 1 (daysIn year month) cs
  return (⟨year, month, day⟩, cs)

/-- The nanoseconds that the digits behind a point spell; digits beyond the ninth do not count. -/
def nanoseconds (digits : List Char) : Nat :=
  let digits := digits.take 9
  Text.natOfDigits digits * 10 ^ (9 - digits.length)

/-- Reads a fraction of a second, if there is one. -/
def secondFraction (cs : List Char) : Nat × List Char :=
  match cs with
  | '.' :: c :: rest =>
    if c.isDigit then
      (nanoseconds ((c :: rest).takeWhile Char.isDigit), (c :: rest).dropWhile Char.isDigit)
    else (0, cs)
  | cs => (0, cs)

/-- Reads a time of day. -/
def time? (cs : List Char) : Option (Time × List Char) := do
  let (hour, cs) ← number? 2 0 23 cs
  let cs ← mark? ':' cs
  let (minute, cs) ← number? 2 0 59 cs
  let cs ← mark? ':' cs
  let (second, cs) ← number? 2 0 60 cs
  let (nanosecond, cs) := secondFraction cs
  return (⟨hour, minute, second, nanosecond⟩, cs)

/-- Reads an offset in hours and minutes. -/
def minutes? (cs : List Char) : Option (Nat × List Char) := do
  let (hour, cs) ← number? 2 0 23 cs
  let cs ← mark? ':' cs
  let (minute, cs) ← number? 2 0 59 cs
  return (hour * 60 + minute, cs)

/-- Reads an offset. -/
def offset? : List Char → Option (Offset × List Char)
  | [] => none
  | c :: rest =>
    if c = 'Z' ∨ c = 'z' then some (.universal, rest)
    else if c = '+' then (minutes? rest).map fun (n, rest) => (.minutes n, rest)
    else if c = '-' then (minutes? rest).map fun (n, rest) => (.minutes (-(n : Int)), rest)
    else none

/-- Reads the time behind a date. -/
def timeBehind? : List Char → Option (Time × List Char)
  | [] => none
  | c :: rest => if c = 'T' ∨ c = 't' ∨ c = ' ' then time? rest else none

/-- Reads a date, a time or both. -/
def dateTime? (cs : List Char) : Option (DateTime × List Char) :=
  match date? cs with
  | none => (time? cs).map fun (t, rest) => (.time t, rest)
  | some (d, rest) =>
    match timeBehind? rest with
    | none => some (.date d, rest)
    | some (t, rest) =>
      match offset? rest with
      | none => some (.dateTime d t none, rest)
      | some (o, rest) => some (.dateTime d t (some o), rest)

end Toml

end Polydoc
