/-
  Toml/Value.lean --- what a TOML text holds.
-/
import Polydoc.Scalar
import Polydoc.Toml.DateTime

set_option autoImplicit false

namespace Polydoc

namespace Toml

inductive Value where
  | string (text : String)
  | integer (value : Int64)
  | float (value : Binary64)
  | bool (value : Bool)
  | dateTime (value : DateTime)
  | array (items : List Value)
  /-- entries in the order of the text, no key twice -/
  | table (entries : List (String × Value))
  deriving Repr, Inhabited

/-- A table: the content of a whole text, or a value of its own. -/
abbrev Table := List (String × Value)

/-- The entries of a table in the order of their keys. -/
def sorted {α : Type} (entries : List (String × α)) : List (String × α) :=
  entries.mergeSort fun a b => a.1 ≤ b.1

end Toml

end Polydoc
