/-
  Kind/Basic.lean --- the kinds of value that a field can be declared with, and record types.

  A record type has a name and named fields in order; the kind of a field may be another record
  type, which it then holds whole.  Kinds are finite trees, so no type can contain itself.
-/
import Polydoc.Entries

set_option autoImplicit false

namespace Polydoc

/-- What a field can hold. -/
inductive Kind where
  | bool
  | integer
  | float
  | string
  /-- a value of any kind, null included -/
  | any
  /-- a dictionary with any values -/
  | mapping
  | sequence (item : Kind)
  /-- a value that may be absent -/
  | optional (inner : Kind)
  /-- a record of the type with that name and those fields -/
  | record (name : String) (fields : List (String × Kind))
  deriving Repr, Inhabited

/-- A record type: a name and the kinds of its fields. -/
structure RecordType where
  name : String
  fields : List (String × Kind)
  deriving Repr, Inhabited

namespace Kind

/-- The kind of a field that holds records of type `t`. -/
def ofType (t : RecordType) : Kind := .record t.name t.fields

/-- The written form of a kind; a record type is written by its name. -/
def text : Kind → String
  | .bool => "bool"
  | .integer => "integer"
  | .float => "float"
  | .string => "string"
  | .any => "any"
  | .mapping => "map"
  | .sequence item => "[" ++ item.text ++ "]"
  | .optional inner => inner.text ++ "?"
  | .record name _ => name

/-! ## Equality -/

mutual

/-- Whether two kinds are the same. -/
def same : Kind → Kind → Bool
  | .bool, .bool => true
  | .integer, .integer => true
  | .float, .float => true
  | .string, .string => true
  | .any, .any => true
  | .mapping, .mapping => true
  | .sequence a, .sequence b => same a b
  | .optional a, .optional b => same a b
  | .record n f, .record m g => n == m && sameFields f g
  | _, _ => false

/-- Whether two lists of fields are the same. -/
def sameFields : List (String × Kind) → List (String × Kind) → Bool
  | [], [] => true
  | (n, a) :: f, (m, b) :: g => n == m && same a b && sameFields f g
  | _, _ => false

end

mutual

theorem same_iff : (a b : Kind) → (same a b = true ↔ a = b)
  | .bool, b => by cases b <;> simp [same]
  | .integer, b => by cases b <;> simp [same]
  | .float, b => by cases b <;> simp [same]
  | .string, b => by cases b <;> simp [same]
  | .any, b => by cases b <;> simp [same]
  | .mapping, b => by cases b <;> simp [same]
  | .sequence a, b => by cases b <;> simp [same, same_iff a]
  | .optional a, b => by cases b <;> simp [same, same_iff a]
  | .record n f, b => by cases b <;> simp [same, sameFields_iff f]

theorem sameFields_iff : (f g : List (String × Kind)) → (sameFields f g = true ↔ f = g)
  | [], g => by cases g <;> simp [sameFields]
  | (n, a) :: f, g => by
    cases g with
    | nil => simp [sameFields]
    | cons e g =>
      obtain ⟨m, b⟩ := e
      simp [sameFields, same_iff a, sameFields_iff f, and_assoc]

end

instance : DecidableEq Kind := fun a b =>
  decidable_of_iff (same a b = true) (same_iff a b)

end Kind

deriving instance DecidableEq for RecordType

namespace RecordType

/-- The kind of the first field with exactly that name. -/
def kind? (t : RecordType) (name : String) : Option Kind :=
  Entries.get? name t.fields

/-- The type with one field more.  A field of a name that is there already replaces it in place. -/
def withField (t : RecordType) (name : String) (kind : Kind) : RecordType :=
  { t with fields := Entries.put name kind t.fields }

/-- The type with the given fields, each added by `withField`. -/
def ofFields (name : String) (fields : List (String × Kind)) : RecordType :=
  ⟨name, Entries.ofList fields⟩

end RecordType

end Polydoc
