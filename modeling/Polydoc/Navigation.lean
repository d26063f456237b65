/-
  Navigation.lean --- following a path through a document, to read or to overwrite what is there.

  Reading (`Node.at?`) and writing (`Node.setAt?`) go the same way and stop at the same place with
  the same error.  Names are entered through indirect layers, `.` stays where it is, and whatever
  should have been normalized away stops the walk.
-/
import Polydoc.Node.Basic
import Polydoc.Path.Basic

set_option autoImplicit false

namespace Polydoc

namespace Navigation

/-- Why an element of a path cannot be followed. -/
inductive Obstacle where
  /-- the value to enter is null -/
  | nilValue
  /-- the mapping has no such key -/
  | keyNotFound
  /-- the record has no such field -/
  | fieldNotFound
  /-- the value to enter has no members -/
  | notContainer
  /-- the element is `..` or a root marker -/
  | unnormalizedPath
  deriving DecidableEq, Repr

/-- Where a walk stopped: at which element of which path, and why. -/
structure Error where
  path : Path
  index : Nat
  element : Element
  obstacle : Obstacle
  deriving DecidableEq, Repr

/-- The wording of an error. -/
def Error.message (e : Error) : String :=
  let path := e.path.render
  let element := e.element.label
  let index := e.index
  match e.obstacle with
  | .nilValue =>
    s!"cannot enter element \"{element}\" of path {path} at index {index}: value is nil"
  | .keyNotFound =>
    s!"cannot get value at path {path}: key \"{element}\" not found in map at path index {index}"
  | .fieldNotFound =>
    s!"cannot get value at path {path}: field \"{element}\" not found in record at path index "
      ++ s!"{index}"
  | .notContainer =>
    s!"cannot get value at path {path}: value at path index {index} is neither a map nor struct"
  | .unnormalizedPath =>
    s!"cannot get value at path {path}: element \"{element}\" at index {index} must be normalized "
      ++ "away before navigation"

/-- Where among the elements a walk stopped. -/
structure Stop where
  index : Nat
  element : Element
  obstacle : Obstacle
  deriving DecidableEq, Repr

def Stop.onPath (p : Path) (s : Stop) : Error :=
  ⟨p, s.index, s.element, s.obstacle⟩

end Navigation

namespace Node

open Navigation

/-- The member that one name leads to. -/
def enter (n : Node) (name : String) : Except Obstacle Node :=
  match n.core with
  | .null => .error .nilValue
  | .mapping entries =>
    match Entries.get? name entries with
    | some child => .ok child
    | none => .error .keyNotFound
  | .record _ fields =>
    match Entries.find? name fields with
    | some child => .ok child
    | none => .error .fieldNotFound
  | _ => .error .notContainer

/-- The node with the member that one name leads to replaced.  A node without that member stays as
it is. -/
def setMember (n : Node) (name : String) (child : Node) : Node :=
  n.withCore <|
    match n.core with
    | .mapping entries =>
      if (Entries.get? name entries).isSome then .mapping (Entries.put name child entries)
      else .mapping entries
    | .record type fields =>
      match Entries.resolve? name fields with
      | some key => .record type (Entries.put key child fields)
      | none => .record type fields
    | other => other

/-- The node that the elements lead to, the first of them standing at `index`. -/
def walk (n : Node) (index : Nat) : List Element → Except Stop Node
  | [] => .ok n
  | .self :: rest => n.walk (index + 1) rest
  | .name text :: rest =>
    match n.enter text with
    | .ok child => child.walk (index + 1) rest
    | .error obstacle => .error ⟨index, .name text, obstacle⟩
  | .parent :: _ => .error ⟨index, .parent, .unnormalizedPath⟩
  | .root :: _ => .error ⟨index, .root, .unnormalizedPath⟩

/-- The node with the place that the elements lead to overwritten. -/
def overwrite (n : Node) (value : Node) (index : Nat) : List Element → Except Stop Node
  | [] => .ok value
  | .self :: rest => n.overwrite value (index + 1) rest
  | .name text :: rest =>
    match n.enter text with
    | .ok child => (child.overwrite value (index + 1) rest).map (n.setMember text)
    | .error obstacle => .error ⟨index, .name text, obstacle⟩
  | .parent :: _ => .error ⟨index, .parent, .unnormalizedPath⟩
  | .root :: _ => .error ⟨index, .root, .unnormalizedPath⟩

/-- The node that a path leads to from `n`. -/
def at? (n : Node) (p : Path) : Except Error Node :=
  (n.walk 0 p.elements).mapError (Stop.onPath p)

/-- The document `n` with the node that a path leads to replaced by `value`. -/
def setAt? (n : Node) (p : Path) (value : Node) : Except Error Node :=
  (n.overwrite value 0 p.elements).mapError (Stop.onPath p)

/-- The document with a fresh record of type `t` at the end of a path. -/
def assignTypeAt? (n : Node) (p : Path) (t : RecordType) : Except Error Node :=
  n.setAt? p t.zero

end Node

end Polydoc
