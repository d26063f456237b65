/-
  Node/Equality.lean --- when two documents are equal.

  Mappings are equal when they hold equal values under the same keys, in whatever order; records
  are when their types are the same and their fields are equal in that sense.  Indirect layers
  count.
-/
import Polydoc.Node.Basic

set_option autoImplicit false

namespace Polydoc

namespace Node

mutual

/-- Whether two nodes are equal. -/
def equal : Node → Node → Bool
  | .null, .null => true
  | .scalar a, .scalar b => a == b
  | .sequence a, .sequence b => equalItems a b
  | .mapping a, .mapping b => a.length == b.length && within a b
  | .record s a, .record t b => s == t && a.length == b.length && within a b
  | .indirect a, .indirect b => equal a b
  | _, _ => false

/-- Whether two lists of nodes are equal item by item. -/
def equalItems : List Node → List Node → Bool
  | [], [] => true
  | a :: as, b :: bs => equal a b && equalItems as bs
  | _, _ => false

/-- Whether `b` holds an equal value for every entry of the first dictionary. -/
def within : List (String × Node) → List (String × Node) → Bool
  | [], _ => true
  | (key, v) :: rest, b =>
    (match Entries.get? key b with
      | some w => equal v w
      | none => false) && within rest b

end

instance : BEq Node := ⟨equal⟩

end Node

end Polydoc
