/-
  Path/Basic.lean --- object paths: sequences of elements that lead from one place of a document to
  another.

  A path is absolute or relative and holds names, references to the place itself (`.`), references
  to the enclosing place (`..`) and, only when it was put together by hand, root markers.  A path of
  names alone is normalized; an absolute path can be normalized, a relative one is anchored at an
  absolute path first.
-/
set_option autoImplicit false

namespace Polydoc

/-- One element of a path. -/
inductive Element where
  /-- the member of that name -/
  | name (text : String)
  /-- the place itself -/
  | self
  /-- the place that encloses this one -/
  | parent
  /-- a marker of the root, which no written path contains -/
  | root
  deriving DecidableEq, Repr, Inhabited

/-- A path through a document. -/
structure Path where
  elements : List Element
  absolute : Bool
  deriving DecidableEq, Repr, Inhabited

namespace Element

def isName : Element → Bool
  | .name _ => true
  | _ => false

/-- What an element is called in a message. -/
def label : Element → String
  | .name text => text
  | .self => "."
  | .parent => ".."
  | .root => ""

/-- A character of a quoted name: a quote and a backslash are escaped by a backslash. -/
def quoteChar (c : Char) : List Char :=
  if c = '"' ∨ c = '\\' then ['\\', c] else [c]

/-- A name in double quotes. -/
def quote (cs : List Char) : List Char :=
  '"' :: cs.flatMap quoteChar ++ ['"']

/-- The written form of an element: names are always quoted, a root marker is empty. -/
def chars : Element → List Char
  | .name text => quote text.toList
  | .self => ['.']
  | .parent => ['.', '.']
  | .root => []

end Element

namespace Path

/-! ## Written form -/

/-- The elements of a path, separated by slashes. -/
def joinElements : List Element → List Char
  | [] => []
  | [e] => e.chars
  | e :: es => e.chars ++ '/' :: joinElements es

/-- The characters of the written form. -/
def chars (p : Path) : List Char :=
  (if p.absolute then ['/'] else []) ++ joinElements p.elements

/-- The written form of a path. -/
def render (p : Path) : String :=
  String.ofList p.chars

/-! ## Building paths -/

/-- The empty absolute path. -/
def top : Path := ⟨[], true⟩

/-- The relative path `.`. -/
def here : Path := ⟨[.self], false⟩

/-- The path through the given members. -/
def ofNames (names : List String) (absolute : Bool) : Path :=
  ⟨names.map .name, absolute⟩

def push (p : Path) (e : Element) : Path :=
  { p with elements := p.elements ++ [e] }

/-! ## Asking about paths -/

def length (p : Path) : Nat := p.elements.length

def isEmpty (p : Path) : Bool := p.elements.isEmpty

def isRelative (p : Path) : Bool := !p.absolute

/-- Whether the path consists of names alone. -/
def isNormalized (p : Path) : Bool := p.elements.all Element.isName

def last? (p : Path) : Option Element := p.elements.getLast?

/-! ## Operations that can fail -/

/-- Why an operation on a path was refused. -/
inductive Error where
  /-- a relative path has no normal form -/
  | relativeNormalize
  /-- the element at `index` leads out of the root -/
  | escapesRoot (index : Nat)
  /-- the path to anchor at is itself relative -/
  | relativeReference
  /-- a root marker stands at `index` -/
  | unexpectedRoot (index : Nat)
  /-- the range reaches beyond the end of the path -/
  | invalidRange (index count length : Nat)
  /-- there is no element to remove -/
  | empty
  /-- an absolute path cannot be appended -/
  | absoluteJoin
  deriving DecidableEq, Repr

/-- The wording of a refusal. -/
def Error.message : Error → String
  | .relativeNormalize => "cannot normalize a relative path"
  | .escapesRoot index => s!"path escaping root at element index {index}"
  | .relativeReference => "the given reference path must be absolute"
  | .unexpectedRoot index => s!"unexpected root element at index {index}"
  | .invalidRange index count length =>
    s!"invalid range of {count} element(s) at index {index} for path of length {length}"
  | .empty => "cannot pop from empty path"
  | .absoluteJoin => "cannot join an absolute path"

/-- Walks through elements from position `index` on, with the names kept so far, innermost first. -/
def resolve (kept : List Element) (index : Nat) : List Element → Except Error (List Element)
  | [] => .ok kept.reverse
  | .name text :: rest => resolve (.name text :: kept) (index + 1) rest
  | .self :: rest => resolve kept (index + 1) rest
  | .parent :: rest =>
    match kept with
    | [] => .error (.escapesRoot index)
    | _ :: outer => resolve outer (index + 1) rest
  | .root :: _ => .error (.unexpectedRoot index)

/-- The absolute path of names alone that leads to the same place. -/
def normalize (p : Path) : Except Error Path :=
  if p.absolute then (resolve [] 0 p.elements).map fun es => ⟨es, true⟩
  else .error .relativeNormalize

/-- What normalizing leaves in the place of a path: a path that is refused stays as it is. -/
def normalizedInPlace (p : Path) : Path :=
  match p.normalize with
  | .ok q => q
  | .error _ => p

/-- The path seen from the root, when `reference` is the place it starts from.  An absolute path is
left as it is. -/
def anchor (p reference : Path) : Except Error Path :=
  if p.absolute then .ok p
  else if reference.absolute then normalize ⟨reference.elements ++ p.elements, true⟩
  else .error .relativeReference

/-- The path without its last element, and that element. -/
def pop (p : Path) : Except Error (Element × Path) :=
  match p.elements.getLast? with
  | some e => .ok (e, { p with elements := p.elements.dropLast })
  | none => .error .empty

/-- The path without the `count` elements from `index` on. -/
def deleteRange (p : Path) (index count : Nat) : Except Error Path :=
  if index + count ≤ p.length then
    .ok { p with elements := p.elements.take index ++ p.elements.drop (index + count) }
  else .error (.invalidRange index count p.length)

/-- One path after another. -/
def join (p other : Path) : Except Error Path :=
  if other.absolute then .error .absoluteJoin
  else .ok { p with elements := p.elements ++ other.elements }

end Path

end Polydoc
