/-
  Yaml/Value.lean --- YAML values: what a document means once its tags and aliases are resolved.
-/
import Polydoc.Scalar

set_option autoImplicit false

namespace Polydoc

namespace Yaml

/-- A number: an integer of at most 64 bits, with or without sign, or a float. -/
inductive Number where
  | integer (value : Int)
  | float (value : Binary64)
  deriving DecidableEq, Repr

inductive Value where
  | null
  | bool (value : Bool)
  | number (value : Number)
  | string (text : String)
  | sequence (items : List Value)
  | mapping (entries : List (Value × Value))
  /-- a value with a tag of the application's own -/
  | tagged (tag : String) (value : Value)
  deriving Repr

/-! ## Equality -/

/-- Whether two numbers are the same value: an integer is none with a float, zeros are equal
whatever their sign, and so are all NaN. -/
def Number.same : Number → Number → Bool
  | .integer a, .integer b => a == b
  | .float a, .float b =>
    if a.isNaN || b.isNaN then a.isNaN && b.isNaN else a == b || (a.isZero && b.isZero)
  | _, _ => false

/-- A tag without the exclamation mark in front of its name. -/
def tagName (tag : String) : String :=
  match tag.toList with
  | '!' :: c :: rest => String.ofList (c :: rest)
  | _ => tag

namespace Value

mutual

/-- Whether two values are the same, the order of entries apart. -/
def same : Value → Value → Bool
  | .null, .null => true
  | .bool a, .bool b => a == b
  | .number a, .number b => a.same b
  | .string a, .string b => a == b
  | .sequence a, .sequence b => sameItems a b
  | .mapping a, .mapping b => a.length == b.length && within a b
  | .tagged s a, .tagged t b => tagName s == tagName t && same a b
  | _, _ => false

def sameItems : List Value → List Value → Bool
  | [], [] => true
  | a :: as, b :: bs => same a b && sameItems as bs
  | _, _ => false

/-- Whether the second list has an entry like each of the first. -/
def within : List (Value × Value) → List (Value × Value) → Bool
  | [], _ => true
  | (k, v) :: rest, b => b.any (fun e => same k e.1 && same v e.2) && within rest b

end

/-! ## Written form -/

/-- Floats in YAML: as in JSON, but a positive exponent has no sign. -/
def layout : Binary64.Layout where
  positional := some (-5, 15)
  keepPoint := true
  plus := false
  tie := .even
  nan := ".nan"
  infinity := (".inf", "-.inf")

end Value

/-- The text of a number. -/
def Number.text : Number → String
  | .integer n => Text.decimal n
  | .float x => Value.layout.write x

def boolText (b : Bool) : String := if b then "true" else "false"

namespace Value

mutual

/-- A value with its structure spelled out, as it is shown in messages. -/
def shown : Value → String
  | .null => "Null"
  | .bool b => "Bool(" ++ boolText b ++ ")"
  | .number n => "Number(" ++ n.text ++ ")"
  | .string s => "String(" ++ Text.escaped s ++ ")"
  | .sequence items => "Sequence [" ++ ", ".intercalate (shownItems items) ++ "]"
  | .mapping entries => "Mapping \x7b" ++ ", ".intercalate (shownEntries entries) ++ "\x7d"
  | .tagged tag v =>
    "TaggedValue \x7b tag: !" ++ tagName tag ++ ", value: " ++ shown v ++ " \x7d"

def shownItems : List Value → List String
  | [] => []
  | v :: rest => shown v :: shownItems rest

/-- Entries as they are shown: a key that is a boolean, a number or a text stands alone. -/
def shownEntries : List (Value × Value) → List String
  | [] => []
  | (k, v) :: rest =>
    let key :=
      match k with
      | .bool b => boolText b
      | .number n => n.text
      | .string s => Text.escaped s
      | other => shown other
    (key ++ ": " ++ shown v) :: shownEntries rest

end

end Value

end Yaml

end Polydoc
