/-
  Toml/Writer.lean --- TOML text of values.

  A text is written in the first form that needs no escapes: between double quotes, single quotes,
  three double quotes or three single quotes.  Where every form needs some, it is between double
  quotes, three of them if it has several lines.
-/
import Polydoc.Binary64.Text
import Polydoc.Toml.Quoted
import Polydoc.Toml.Value

set_option autoImplicit false

namespace Polydoc

namespace Toml

/-! ## Texts -/

/-- How a text is enclosed. -/
inductive Quotes where
  /-- double quotes, with escapes -/
  | basic
  /-- single quotes -/
  | literal
  /-- three double quotes, with escapes -/
  | basicLines
  /-- three single quotes -/
  | literalLines
  deriving DecidableEq, Repr

/-- The length of the longest run of a character, where `current` of them come before. -/
def longestRun (c : Char) (best current : Nat) : List Char → Nat
  | [] => max best current
  | d :: rest =>
    if d = c then longestRun c best (current + 1) rest
    else longestRun c (max best current) 0 rest

/-- Whether a text needs no escapes but for quotes and backslashes. -/
def isPlain (cs : List Char) : Bool := cs.all fun c => c = '\n' || isPrintable c

/-- Whether a text can stand in the given form without an escape. -/
def Quotes.fits (cs : List Char) : Quotes → Bool
  | .basic => isPlain cs && !cs.contains '\\' && !cs.contains '"' && !cs.contains '\n'
  | .literal => isPlain cs && !cs.contains '\x27' && !cs.contains '\n'
  | .basicLines => isPlain cs && !cs.contains '\\' && longestRun '"' 0 0 cs ≤ 2
  | .literalLines => isPlain cs && longestRun '\x27' 0 0 cs ≤ 2

/-- The first of `forms` that fits a text, or else `otherwise`. -/
def Quotes.choose (cs : List Char) (otherwise : Quotes) (forms : List Quotes) : Quotes :=
  (forms.find? (Quotes.fits cs)).getD otherwise

/-- How a text is enclosed. -/
def quotesFor (cs : List Char) : Quotes :=
  Quotes.choose cs (if cs.contains '\n' then .basicLines else .basic)
    [.basic, .literal, .basicLines, .literalLines]

/-- The hexadecimal digits of a number, in upper case. -/
def upperHex (n : Nat) : List Char := (Nat.toDigits 16 n).map Char.toUpper

/-- A character other than a quote between double quotes; a line break stands for itself in a text
of several lines. -/
def escapedChar (lines : Bool) (c : Char) : List Char :=
  if c = '\x08' then ['\\', 'b']
  else if c = '\t' then ['\\', 't']
  else if c = '\n' then if lines then ['\n'] else ['\\', 'n']
  else if c = '\x0c' then ['\\', 'f']
  else if c = '\r' then ['\\', 'r']
  else if c = '\\' then ['\\', '\\']
  else if c.toNat ≤ 0x1F ∨ c.toNat = 0x7F then
    let digits := upperHex c.toNat
    ['\\', 'u'] ++ List.replicate (4 - digits.length) '0' ++ digits
  else [c]

/-- A text between double quotes, where `quotes` of them may follow each other before one is
escaped; `before` stand right before it. -/
def escapedText (lines : Bool) (quotes before : Nat) : List Char → List Char
  | [] => []
  | c :: rest =>
    if c = '"' then
      if before < quotes then '"' :: escapedText lines quotes (before + 1) rest
      else '\\' :: '"' :: escapedText lines quotes 0 rest
    else escapedChar lines c ++ escapedText lines quotes 0 rest

/-- A text enclosed in the given way.  Behind three quotes a text of several lines starts on a line
of its own. -/
def Quotes.write (q : Quotes) (cs : List Char) : List Char :=
  let start := if cs.contains '\n' then ['\n'] else []
  let double := ['"', '"', '"']
  let single := ['\x27', '\x27', '\x27']
  match q with
  | .basic => '"' :: escapedText false 0 0 cs ++ ['"']
  | .literal => '\x27' :: cs ++ ['\x27']
  | .basicLines => double ++ start ++ escapedText true 2 0 cs ++ double
  | .literalLines => single ++ start ++ cs ++ single

/-- The written form of a text. -/
def quoted (text : String) : String :=
  String.ofList ((quotesFor text.toList).write text.toList)

/-- The written form of a key: without quotes where that is possible. -/
def keyText (key : String) : String :=
  let cs := key.toList
  if !cs.isEmpty && cs.all isBareChar then key
  else String.ofList ((Quotes.choose cs .basic [.basic, .literal]).write cs)

/-! ## Values -/

/-- Floats in TOML: never with an exponent, and always with a point. -/
def layout : Binary64.Layout where
  positional := none
  keepPoint := true
  plus := false
  tie := .up
  nan := "nan"
  infinity := ("inf", "-inf")

/-- The place of an entry in a written table: values come first, then arrays that hold tables, and
tables last. -/
def rank : Value → Nat
  | .table _ => 2
  | .array items =>
    if items.any (fun v => match v with
      | .table _ => true
      | _ => false) then 1 else 0
  | _ => 0

mutual

/-- The written form of a value, on one line as far as its texts are.  The entries of a table are
sorted by their keys within each rank. -/
def Value.write : Value → String
  | .string s => quoted s
  | .integer i => Text.decimal i.toInt
  | .float x => layout.write x
  | .bool true => "true"
  | .bool false => "false"
  | .dateTime t => t.text
  | .array items => "[" ++ ", ".intercalate (writeItems items) ++ "]"
  | .table entries =>
    if entries.isEmpty then "\x7b\x7d"
    else
      let written := sorted (writeEntries entries)
      let ofRank (r : Nat) : List String :=
        (written.filter fun e => e.2.1 = r).map fun e => keyText e.1 ++ " = " ++ e.2.2
      "\x7b " ++ ", ".intercalate (ofRank 0 ++ ofRank 1 ++ ofRank 2) ++ " \x7d"

def writeItems : List Value → List String
  | [] => []
  | v :: rest => v.write :: writeItems rest

/-- The keys of entries, each with the rank and the written form of its value. -/
def writeEntries : List (String × Value) → List (String × Nat × String)
  | [] => []
  | (key, v) :: rest => (key, rank v, v.write) :: writeEntries rest

end

end Toml

end Polydoc
