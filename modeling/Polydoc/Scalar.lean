/-
  Scalar.lean --- the values without parts: booleans, 64-bit integers, numbers and texts.
-/
import Polydoc.Binary64.Text
import Polydoc.Text.Digit
import Polydoc.Text.Escaped

set_option autoImplicit false

namespace Polydoc

/-- A value without parts.  An integer is never equal to a float, and floats are equal when their
bits are. -/
inductive Scalar where
  | bool (value : Bool)
  | integer (value : Int64)
  | float (value : Binary64)
  | string (text : String)
  deriving DecidableEq, Repr

namespace Scalar

/-- The name of a scalar's kind. -/
def kindName : Scalar → String
  | .bool _ => "bool"
  | .integer _ => "integer"
  | .float _ => "float"
  | .string _ => "string"

def string? : Scalar → Option String
  | .string text => some text
  | _ => none

/-- A scalar as it is named in messages: a text is quoted. -/
def shown : Scalar → String
  | .bool true => "true"
  | .bool false => "false"
  | .integer i => Text.decimal i.toInt
  | .float x => Binary64.plain.write x
  | .string text => Text.escaped text

end Scalar

end Polydoc
