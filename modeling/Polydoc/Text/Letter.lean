/-
  Text/Letter.lean --- which characters may stand in a bare path element.

  Letters are the characters with the Unicode property Alphabetic; digits are those of the general
  categories Nd, Nl and No, so that `²` and `Ⅷ` count as digits of a name.
-/
import Polydoc.Text.Table.Alphabetic
import Polydoc.Text.Table.Numeric

set_option autoImplicit false

namespace Polydoc.Text

/-- A character with the property Alphabetic. -/
def isLetter (c : Char) : Bool :=
  if c.toNat < 0x80 then c.isAlpha else inRanges alphabeticRanges c

/-- A character of a numeric general category. -/
def isNumeral (c : Char) : Bool :=
  if c.toNat < 0x80 then c.isDigit else inRanges numericRanges c

/-- A letter or a numeral. -/
def isLetterOrNumeral (c : Char) : Bool :=
  isLetter c || isNumeral c

theorem isLetterOrNumeral_of_isLetter {c : Char} (h : isLetter c = true) :
    isLetterOrNumeral c = true := by
  simp [isLetterOrNumeral, h]

/-! ## The characters that have a meaning of their own in a path are not letters -/

theorem isLetterOrNumeral_slash : isLetterOrNumeral '/' = false := by decide
theorem isLetterOrNumeral_quote : isLetterOrNumeral '"' = false := by decide

end Polydoc.Text
