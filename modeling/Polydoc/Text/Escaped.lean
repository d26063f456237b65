/-
  Text/Escaped.lean --- text between double quotes, with every character that would not show as
  itself written as an escape.
-/
import Polydoc.Text.CodeRange
import Polydoc.Text.Table.Graphic
import Polydoc.Text.Table.GraphemeExtend

set_option autoImplicit false

namespace Polydoc.Text

/-- A character that is seen on its own: it has a glyph and does not attach to its neighbour. -/
def standsAlone (c : Char) : Bool :=
  if c.toNat < 0x80 then 0x20 ≤ c.toNat && c.toNat < 0x7F
  else inRanges graphicRanges c && !inRanges graphemeExtendRanges c

/-- Lower-case hexadecimal digits, without leading zeros. -/
def hexDigits (n : Nat) : List Char :=
  Nat.toDigits 16 n

/-- A character inside double quotes. -/
def escapeChar (c : Char) : List Char :=
  if c = '\x00' then ['\\', '0']
  else if c = '\t' then ['\\', 't']
  else if c = '\r' then ['\\', 'r']
  else if c = '\n' then ['\\', 'n']
  else if c = '\\' then ['\\', '\\']
  else if c = '"' then ['\\', '"']
  else if standsAlone c then [c]
  else ['\\', 'u', '\x7b'] ++ hexDigits c.toNat ++ ['\x7d']

/-- The text in double quotes, escaped. -/
def escaped (s : String) : String :=
  String.ofList ('"' :: s.toList.flatMap escapeChar ++ ['"'])

end Polydoc.Text
