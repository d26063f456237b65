/-
  Node/Basic.lean --- documents: trees of scalars, sequences, mappings and records.

  A mapping has exact keys.  A record belongs to a type, and its fields are also found by names that
  differ in letter case.  An indirect node wraps a value that an optional field holds; nearly every
  question looks through it.
-/
import Polydoc.Kind.Basic
import Polydoc.Scalar

set_option autoImplicit false

namespace Polydoc

/-- A document or a part of one. -/
inductive Node where
  | null
  | scalar (value : Scalar)
  | sequence (items : List Node)
  | mapping (entries : List (String × Node))
  | record (type : RecordType) (fields : List (String × Node))
  /-- a value behind an optional layer -/
  | indirect (inner : Node)
  deriving Repr, Inhabited

namespace Node

/-! ## Looking through indirection -/

/-- The node without the indirect layers around it. -/
def core : Node → Node
  | .indirect inner => inner.core
  | n => n

/-- The node with its core replaced; the indirect layers around it stay. -/
def withCore : Node → Node → Node
  | .indirect inner, n => .indirect (inner.withCore n)
  | _, n => n

@[simp] theorem core_indirect (n : Node) : (Node.indirect n).core = n.core := rfl

theorem core_core (n : Node) : n.core.core = n.core := by
  induction n using Node.core.induct with
  | case1 inner ih => simpa using ih
  | case2 n h => cases n <;> simp_all [core]

theorem sizeOf_core_le (n : Node) : sizeOf n.core ≤ sizeOf n := by
  induction n using Node.core.induct with
  | case1 inner ih =>
    simp only [core_indirect, Node.indirect.sizeOf_spec]
    omega
  | case2 n h => cases n <;> simp_all [core]

/-! ## Asking about a node -/

/-- The name of a node's kind. -/
def kindName (n : Node) : String :=
  match n.core with
  | .null => "null"
  | .scalar value => value.kindName
  | .sequence _ => "sequence"
  | .mapping _ => "map"
  | .record _ _ => "record"
  | .indirect _ => "indirect"

def isNull (n : Node) : Bool :=
  match n.core with
  | .null => true
  | _ => false

def scalar? (n : Node) : Option Scalar :=
  match n.core with
  | .scalar value => some value
  | _ => none

def string? (n : Node) : Option String :=
  n.scalar?.bind Scalar.string?

def integer? (n : Node) : Option Int64 :=
  match n.scalar? with
  | some (.integer i) => some i
  | _ => none

def bool? (n : Node) : Option Bool :=
  match n.scalar? with
  | some (.bool b) => some b
  | _ => none

/-- The entries of a mapping. -/
def mapping? (n : Node) : Option (List (String × Node)) :=
  match n.core with
  | .mapping entries => some entries
  | _ => none

/-- The type and the fields of a record. -/
def record? (n : Node) : Option (RecordType × List (String × Node)) :=
  match n.core with
  | .record type fields => some (type, fields)
  | _ => none

/-- The member of that name: of a mapping by its exact key, of a record in any letter case. -/
def member? (n : Node) (name : String) : Option Node :=
  match n.core with
  | .mapping entries => Entries.get? name entries
  | .record _ fields => Entries.find? name fields
  | _ => none

def bool (b : Bool) : Node := .scalar (.bool b)
def integer (i : Int64) : Node := .scalar (.integer i)
def float (x : Binary64) : Node := .scalar (.float x)
def string (s : String) : Node := .scalar (.string s)

end Node

/-! ## Zero values -/

mutual

/-- What a field of that kind holds before anything is stored in it. -/
def Kind.zero : Kind → Node
  | .bool => .bool false
  | .integer => .integer 0
  | .float => .float Binary64.zero
  | .string => .string ""
  | .any => .null
  | .optional _ => .null
  | .mapping => .mapping []
  | .sequence _ => .sequence []
  | .record name fields => .record ⟨name, fields⟩ (Entries.ofList (Kind.zeroFields fields))

/-- The zero values of fields, in order. -/
def Kind.zeroFields : List (String × Kind) → List (String × Node)
  | [] => []
  | (name, kind) :: rest => (name, kind.zero) :: Kind.zeroFields rest

end

/-- A fresh record.  A field name that is declared twice has one field, at its first place and with
the zero of its last kind. -/
def RecordType.zero (t : RecordType) : Node :=
  (Kind.ofType t).zero

end Polydoc
