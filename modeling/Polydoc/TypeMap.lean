/-
  TypeMap.lean --- which record type each value of a discriminator stands for.
-/
import Polydoc.Node.Basic

set_option autoImplicit false

namespace Polydoc

/-- Record types by discriminator value, in the order in which the values came. -/
structure TypeMap where
  entries : List (Scalar × RecordType)
  deriving DecidableEq, Repr

namespace TypeMap

def empty : TypeMap := ⟨[]⟩

/-- The map of the given pairs; a value given again keeps its place and takes the later type. -/
def ofList (pairs : List (Scalar × RecordType)) : TypeMap := ⟨Entries.ofList pairs⟩

/-- The type that a value stands for. -/
def get? (m : TypeMap) (key : Scalar) : Option RecordType := Entries.get? key m.entries

/-- Makes a value stand for a type, and tells what it stood for. -/
def insert (m : TypeMap) (key : Scalar) (type : RecordType) : Option RecordType × TypeMap :=
  (m.get? key, ⟨Entries.put key type m.entries⟩)

def size (m : TypeMap) : Nat := m.entries.length

def isEmpty (m : TypeMap) : Bool := m.entries.isEmpty

theorem get?_insert (m : TypeMap) (key key' : Scalar) (type : RecordType) :
    (m.insert key type).2.get? key' = if key = key' then some type else m.get? key' :=
  Entries.get?_put key key' type m.entries

end TypeMap

end Polydoc
