/-
  Decode.lean --- filling a document from another one, guided by the record types it holds.

  Decoding writes into a target.  A record takes its fields from the members of the source, found
  by name without regard to letter case; a mapping is merged with a mapping of the source; whatever
  else stands in the target without a declared kind is replaced.  Nothing is taken from a null.

  A value that does not fit the kind of its field ends the decoding.  What was written before stays
  written, so every function here answers with the target as it is left and with the error, if
  there was one.
-/
import Polydoc.Binary64.Integer
import Polydoc.Node.Basic

set_option autoImplicit false

namespace Polydoc

namespace Decode

/-! ## Errors -/

/-- A step from a place of a document to one inside it. -/
inductive Step where
  /-- to a field of a record or to a key of a mapping -/
  | member (name : String)
  /-- to an item of a sequence -/
  | item (index : Nat)
  deriving DecidableEq, Repr

/-- A place, as the steps that lead to it from the root. -/
abbrev Place : Type := List Step

/-- The text of a place after one more step: members are separated by dots, a member behind nothing
stands alone, and items are written in brackets. -/
def Step.append (text : String) : Step → String
  | .member name => if text.isEmpty then name else text ++ "." ++ name
  | .item index => s!"{text}[{index}]"

/-- The written form of a place; an empty one is the root. -/
def placeText (place : Place) : String :=
  let text := place.foldl Step.append ""
  if text.isEmpty then "<root>" else text

/-- A value of the source that does not fit: where it stands, what was declared there, and what kind
of value was found. -/
structure Error where
  place : Place
  expected : String
  found : String
  deriving DecidableEq, Repr

/-- The written form of the place of an error. -/
def Error.field (e : Error) : String := placeText e.place

/-- The wording of an error. -/
def Error.message (e : Error) : String :=
  let field := e.field
  let expected := e.expected
  let found := e.found
  s!"field {field}: expected {expected}, found {found}"

def mismatch (place : Place) (expected : String) (source : Node) : Error :=
  ⟨place, expected, source.kindName⟩

/-- What decoding leaves: the value written to, and the error that ended it early. -/
abbrev Outcome (α : Type) : Type := α × Except Error Unit

/-! ## Sources -/

/-- The value that a source has for a field: under the very name, else under the first key that
differs from it in letter case alone. -/
def lookup (source : Node) (name : String) : Option Node :=
  match source with
  | .mapping entries => Entries.find? name entries
  | .record _ fields => Entries.find? name fields
  | _ => none

theorem sizeOf_lt_of_lookup {source value : Node} {name : String}
    (h : lookup source name = some value) : sizeOf value < sizeOf source := by
  cases source with
  | mapping entries =>
    have := Entries.sizeOf_lt_of_find? h
    simp only [Node.mapping.sizeOf_spec]
    omega
  | record type fields =>
    have := Entries.sizeOf_lt_of_find? h
    simp only [Node.record.sizeOf_spec]
    omega
  | _ => simp [lookup] at h

/-- Whether a source has members. -/
def hasMembers : Node → Bool
  | .mapping _ => true
  | .record _ _ => true
  | _ => false

/-- The scalar that a value gives for a field of a scalar kind.  Numbers pass between the two kinds
of numbers: an integer always becomes a float, a float is cast to an integer only if it is integral.
-/
def scalarFor : Kind → Node → Option Scalar
  | .bool, .scalar (.bool b) => some (.bool b)
  | .integer, .scalar (.integer i) => some (.integer i)
  | .integer, .scalar (.float x) =>
    if x.isIntegral then some (.integer x.toInt64) else none
  | .float, .scalar (.float x) => some (.float x)
  | .float, .scalar (.integer i) => some (.float (Binary64.ofInt i.toInt))
  | .string, .scalar (.string s) => some (.string s)
  | _, _ => none

/-! ## Decoding -/

/-- The record that a field of a record type is decoded into: the one it holds, if that has the
declared type's name, else a fresh one. -/
def recordFor (type : RecordType) (slot : Node) : Node :=
  match slot.record? with
  | some (held, _) => if held.name = type.name then slot else type.zero
  | none => type.zero

mutual

/-- Decodes a value into a slot that is declared with a kind. -/
def value (kind : Kind) (source slot : Node) (place : Place) : Outcome Node :=
  if source.isNull then (slot, .ok ())
  else
    match kind with
    | .bool | .integer | .float | .string =>
      match scalarFor kind source.core with
      | some s => (.scalar s, .ok ())
      | none => (slot, .error (mismatch place kind.text source))
    | .mapping =>
      match source.core with
      | .mapping entries => (.mapping entries, .ok ())
      | _ => (slot, .error (mismatch place kind.text source))
    | .sequence item =>
      match _h : source.core with
      | .sequence items =>
        match sequence item items place 0 with
        | .ok decoded => (.sequence decoded, .ok ())
        | .error e => (slot, .error e)
      | _ => (slot, .error (mismatch place kind.text source))
    | .optional inner =>
      match value inner source inner.zero place with
      | (decoded, .ok ()) => (.indirect decoded, .ok ())
      | (_, .error e) => (slot, .error e)
    | .record name fields =>
      let slot := recordFor ⟨name, fields⟩ slot
      match slot.core with
      | .record type held =>
        let (held, result) := record source.core type held place
        (slot.withCore (.record type held), result)
      | _ => (slot, .ok ())
    | .any => into source slot place
termination_by (sizeOf source, 4, sizeOf kind)
decreasing_by
  · have hs := Node.sizeOf_core_le source
    rw [_h] at hs
    simp only [Node.sequence.sizeOf_spec] at hs
    apply Prod.Lex.left
    omega
  · apply Prod.Lex.right
    apply Prod.Lex.right
    simp
  · have hs := Node.sizeOf_core_le source
    rcases Nat.lt_or_eq_of_le hs with hs | hs
    · exact Prod.Lex.left _ _ hs
    · rw [hs]
      apply Prod.Lex.right
      apply Prod.Lex.left
      omega
  · apply Prod.Lex.right
    apply Prod.Lex.left
    omega

/-- Decodes every item of a sequence into a fresh value. -/
def sequence (item : Kind) (items : List Node) (place : Place) (index : Nat) :
    Except Error (List Node) :=
  match items with
  | [] => .ok []
  | source :: rest =>
    match value item source item.zero (place ++ [.item index]) with
    | (_, .error e) => .error e
    | (decoded, .ok ()) =>
      match sequence item rest place (index + 1) with
      | .ok more => .ok (decoded :: more)
      | .error e => .error e
termination_by (sizeOf items, 0, 0)
decreasing_by
  · apply Prod.Lex.left
    simp only [List.cons.sizeOf_spec]
    omega
  · apply Prod.Lex.left
    simp only [List.cons.sizeOf_spec]
    omega

/-- Decodes a source into the fields of a record. -/
def record (source : Node) (type : RecordType) (held : List (String × Node)) (place : Place) :
    Outcome (List (String × Node)) :=
  if hasMembers source then fields source type type.fields held place
  else (held, .error (mismatch place type.name source))
termination_by (sizeOf source, 2, 0)
decreasing_by
  · apply Prod.Lex.right
    apply Prod.Lex.left
    omega

/-- Decodes a source into the given ones of a record's declared fields, in their order. -/
def fields (source : Node) (type : RecordType) (todo : List (String × Kind))
    (held : List (String × Node)) (place : Place) : Outcome (List (String × Node)) :=
  match todo with
  | [] => (held, .ok ())
  | (name, kind) :: rest =>
    match _h : lookup source name with
    | none => fields source type rest held place
    | some member =>
      let slot :=
        match Entries.get? name held with
        | some slot => slot
        | none => ((type.kind? name).map Kind.zero).getD .null
      match value kind member slot (place ++ [.member name]) with
      | (decoded, .ok ()) => fields source type rest (Entries.put name decoded held) place
      | (decoded, .error e) => (Entries.put name decoded held, .error e)
termination_by (sizeOf source, 1, sizeOf todo)
decreasing_by
  · apply Prod.Lex.right
    apply Prod.Lex.right
    simp only [List.cons.sizeOf_spec, Prod.mk.sizeOf_spec]
    omega
  · exact Prod.Lex.left _ _ (sizeOf_lt_of_lookup _h)
  · apply Prod.Lex.right
    apply Prod.Lex.right
    simp only [List.cons.sizeOf_spec, Prod.mk.sizeOf_spec]
    omega

/-- Decodes a value into a slot without a declared kind: a record there is filled, a mapping there
is merged with a mapping, and anything else gives way. -/
def into (source slot : Node) (place : Place) : Outcome Node :=
  match slot.core with
  | .record type held =>
    if source.isNull then (slot, .ok ())
    else
      let (held, result) := record source.core type held place
      (slot.withCore (.record type held), result)
  | .mapping entries =>
    match _h : source.core with
    | .mapping values =>
      let (entries, result) := merge values entries place
      (slot.withCore (.mapping entries), result)
    | other => (slot.withCore other, .ok ())
  | _ => (slot.withCore source.core, .ok ())
termination_by (sizeOf source, 3, 0)
decreasing_by
  · have hs := Node.sizeOf_core_le source
    rcases Nat.lt_or_eq_of_le hs with hs | hs
    · exact Prod.Lex.left _ _ hs
    · rw [hs]
      apply Prod.Lex.right
      apply Prod.Lex.left
      omega
  · have hs := Node.sizeOf_core_le source
    rw [_h] at hs
    simp only [Node.mapping.sizeOf_spec] at hs
    apply Prod.Lex.left
    omega

/-- Decodes the values of a mapping into the entries of another one; new keys go to the end. -/
def merge (values entries : List (String × Node)) (place : Place) :
    Outcome (List (String × Node)) :=
  match values with
  | [] => (entries, .ok ())
  | (key, source) :: rest =>
    match Entries.get? key entries with
    | none => merge rest (Entries.put key source entries) place
    | some slot =>
      match into source slot (place ++ [.member key]) with
      | (decoded, .ok ()) => merge rest (Entries.put key decoded entries) place
      | (decoded, .error e) => (Entries.put key decoded entries, .error e)
termination_by (sizeOf values, 0, 0)
decreasing_by
  all_goals
    apply Prod.Lex.left
    simp only [List.cons.sizeOf_spec, Prod.mk.sizeOf_spec]
    omega

end

end Decode

/-- Decodes `source` into `target`.  A null source leaves the target alone. -/
def decodeInto (source target : Node) : Decode.Outcome Node :=
  if source.isNull then (target, .ok ()) else Decode.into source target []

end Polydoc
