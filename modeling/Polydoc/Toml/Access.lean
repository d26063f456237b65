/-
  Toml/Access.lean --- looking into TOML values, and TOML values as documents.
-/
import Polydoc.Node.Basic
import Polydoc.Toml.Value

set_option autoImplicit false

namespace Polydoc

namespace Toml

namespace Value

def string? : Value → Option String
  | .string text => some text
  | _ => none

def bool? : Value → Option Bool
  | .bool b => some b
  | _ => none

def array? : Value → Option (List Value)
  | .array items => some items
  | _ => none

/-- The key under which a date-time has its text when it is taken as a table. -/
def dateTimeKey : String := "$__toml_private_datetime"

/-- The entries of a table.  A date-time is a table of one entry. -/
def table? : Value → Option Table
  | .table entries => some entries
  | .dateTime t => some [(dateTimeKey, .string t.text)]
  | _ => none

/-- The values of the given keys: a table must have no others, and an array has values in the order
of the keys, further ones being left out. -/
def fields? (keys : List String) : Value → Option (List (Option Value))
  | .array items => some (keys.zipIdx.map fun (_, i) => items[i]?)
  | v =>
    v.table?.bind fun entries =>
      if entries.all fun e => keys.contains e.1 then
        some (keys.map fun key => Entries.get? key entries)
      else none

/-! ## Documents -/

mutual

/-- The document of a value: a date-time is its text, and the keys of a table are in order. -/
def toNode : Value → Node
  | .string s => .scalar (.string s)
  | .integer i => .scalar (.integer i)
  | .float x => .scalar (.float x)
  | .bool b => .scalar (.bool b)
  | .dateTime t => .scalar (.string t.text)
  | .array items => .sequence (toNodes items)
  | .table entries => .mapping (sorted (toEntries entries))

def toNodes : List Value → List Node
  | [] => []
  | v :: rest => v.toNode :: toNodes rest

def toEntries : List (String × Value) → List (String × Node)
  | [] => []
  | (key, v) :: rest => (key, v.toNode) :: toEntries rest

end

end Value

end Toml

end Polydoc
