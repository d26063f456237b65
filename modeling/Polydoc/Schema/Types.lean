/-
  Schema/Types.lean --- from declared types to record types.

  A type is made after the types that its fields refer to, so that a type that refers to itself,
  directly or not, cannot be made.  Every declared type is made, whether anything refers to it or
  not.
-/
import Polydoc.Kind.Form
import Polydoc.Schema.Basic

set_option autoImplicit false

namespace Polydoc

namespace Schema

/-- Why a type cannot be made. -/
inductive TypeError where
  /-- the kind of a field has an empty part -/
  | emptyKind (type field : String)
  /-- a type that a field refers to cannot be made -/
  | inField (type field : String) (cause : TypeError)
  /-- types that refer to each other, the first one being the last one again -/
  | cycle (types : List String)
  | unknown (type : String)
  deriving DecidableEq, Repr

/-- The wording of an error, outermost context first. -/
def TypeError.message : TypeError → String
  | .emptyKind type field => "invalid kind of field " ++ type ++ "." ++ field ++ ": empty field kind"
  | .inField type field cause => "in field " ++ type ++ "." ++ field ++ ": " ++ cause.message
  | .cycle types => "type cycle: " ++ " -> ".intercalate types
  | .unknown type => "unknown type '" ++ type ++ "'"

/-- The types that are made, by name, in the order in which they were. -/
abbrev Built := List (String × RecordType)

/-- Makes a type, unless it is made already. -/
abbrev Maker := String → Built → Except TypeError (RecordType × Built)

/-- The kind of a form, in which `make` makes the type that is named. -/
def kindOf (make : Maker) : Kind.Form → Built → Except TypeError (Kind × Built)
  | .bool, built => .ok (.bool, built)
  | .integer, built => .ok (.integer, built)
  | .float, built => .ok (.float, built)
  | .string, built => .ok (.string, built)
  | .any, built => .ok (.any, built)
  | .mapping, built => .ok (.mapping, built)
  | .sequence item, built => (kindOf make item built).map fun (k, built) => (.sequence k, built)
  | .optional inner, built => (kindOf make inner built).map fun (k, built) => (.optional k, built)
  | .named type, built => (make type built).map fun (t, built) => (Kind.ofType t, built)

/-- The fields of a type with their kinds. -/
def fieldsOf (make : Maker) (type : String) :
    List (String × String) → Built → Except TypeError (List (String × Kind) × Built)
  | [], built => .ok ([], built)
  | (field, text) :: rest, built =>
    match Kind.Form.read? text with
    | none => .error (.emptyKind type field)
    | some form =>
      match kindOf make form built with
      | .error cause => .error (.inField type field cause)
      | .ok (kind, built) =>
        match fieldsOf make type rest built with
        | .error e => .error e
        | .ok (fields, built) => .ok ((field, kind) :: fields, built)

/-- What is wrong with a type that is not there to be made: its fields are being made, or it is not
declared. -/
def missing (making : List String) (type : String) : TypeError :=
  if type ∈ making then .cycle (making.dropWhile (· ≠ type) ++ [type]) else .unknown type

/-- Makes a type while the types `making` are being made, of which each refers to the next.  What is
declared and not being made is `open_`; it has at most as many types as the first argument says. -/
def make : Nat → Declared → List String → Maker
  | limit, open_, making, type, built =>
    match Entries.get? type built with
    | some t => .ok (t, built)
    | none =>
      match limit, Entries.get? type open_ with
      | limit + 1, some fields =>
        let others := open_.filter (·.1 ≠ type)
        match fieldsOf (make limit others (making ++ [type])) type fields built with
        | .error e => .error e
        | .ok (kinds, built) =>
          let t := RecordType.ofFields type kinds
          .ok (t, built ++ [(type, t)])
      | _, _ => .error (missing making type)

/-- Makes types one after another. -/
def makeAll (declared : Declared) : List String → Built → Except TypeError Built
  | [], built => .ok built
  | type :: rest, built =>
    match make declared.length declared [] type built with
    | .error e => .error e
    | .ok (_, built) => makeAll declared rest built

/-- The record types of all declared types. -/
def typesOf (declared : Declared) : Except TypeError Built :=
  makeAll declared (Entries.keys declared) []

end Schema

end Polydoc
