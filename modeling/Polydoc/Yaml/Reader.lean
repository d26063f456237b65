/-
  Yaml/Reader.lean --- reading YAML text as a document.

  The keys of a document are texts, so that a YAML key must be a text, a number or a boolean, and
  stands for its text.
-/
import Polydoc.Node.Basic
import Polydoc.Yaml.Resolve
import Polydoc.Yaml.Tokens

set_option autoImplicit false

namespace Polydoc

namespace Yaml

/-- Why a text does not hold a document. -/
inductive Error where
  /-- the text is not YAML, or holds what is not read -/
  | malformed
  /-- a key that has no text -/
  | unsupportedKey (key : Value)
  deriving Repr

/-- The wording of an error. -/
def Error.message : Error → String
  | .malformed => "Failed to parse YAML"
  | .unsupportedKey key => "Unsupported YAML mapping key: " ++ key.shown

/-- The scalar of a number. -/
def Number.scalar : Number → Scalar
  | .integer n =>
    if -2 ^ 63 ≤ n ∧ n < 2 ^ 63 then .integer (Int64.ofInt n) else .float (Binary64.ofInt n)
  | .float x => .float x

/-- The text that a key stands for. -/
def keyText : Value → Except Error String
  | .string s => .ok s
  | .number n => .ok n.text
  | .bool b => .ok (boolText b)
  | key => .error (.unsupportedKey key)

mutual

/-- The document of a value.  Tags are dropped; of keys with the same text the first has the place
and the last the value. -/
def toNode : Value → Except Error Node
  | .null => .ok .null
  | .bool b => .ok (.bool b)
  | .number n => .ok (.scalar n.scalar)
  | .string s => .ok (.string s)
  | .sequence items => (toNodes items).map .sequence
  | .mapping entries => (toEntries entries).map fun es => .mapping (Entries.ofList es)
  | .tagged _ v => toNode v

def toNodes : List Value → Except Error (List Node)
  | [] => .ok []
  | v :: rest =>
    match toNode v with
    | .error e => .error e
    | .ok n => (toNodes rest).map (n :: ·)

def toEntries : List (Value × Value) → Except Error (List (String × Node))
  | [] => .ok []
  | (k, v) :: rest =>
    match keyText k with
    | .error e => .error e
    | .ok key =>
      match toNode v with
      | .error e => .error e
      | .ok n => (toEntries rest).map ((key, n) :: ·)

end

/-- The document that a YAML text holds. -/
def read (text : String) : Except Error Node :=
  match (tokens? text.toList).bind ofTokens? with
  | some v => toNode v
  | none => .error .malformed

end Yaml

end Polydoc
