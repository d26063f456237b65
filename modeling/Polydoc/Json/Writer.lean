/-
  Json/Writer.lean --- documents as JSON text, on one line or indented.

  A record is written as an object of its fields in their order, an indirect value as what it holds,
  and a number that JSON cannot hold as `null`.
-/
import Polydoc.Node.Basic

set_option autoImplicit false

namespace Polydoc

namespace Json

/-- Numbers in JSON: a whole number keeps `.0`, and from `1e+16` on and below `0.00001` there is an
exponent. -/
def layout : Binary64.Layout where
  positional := some (-5, 15)
  keepPoint := true
  plus := true
  tie := .even
  nan := "null"
  infinity := ("null", "null")

/-- The hexadecimal digit of a value below sixteen. -/
def hexDigit (n : Nat) : Char := Nat.digitChar n

/-- A character inside quotes. -/
def quotedChar (c : Char) : List Char :=
  if c = '"' then ['\\', '"']
  else if c = '\\' then ['\\', '\\']
  else if c = '\x08' then ['\\', 'b']
  else if c = '\t' then ['\\', 't']
  else if c = '\n' then ['\\', 'n']
  else if c = '\x0c' then ['\\', 'f']
  else if c = '\r' then ['\\', 'r']
  else if c.toNat < 0x20 then
    ['\\', 'u', '0', '0', hexDigit (c.toNat / 16), hexDigit (c.toNat % 16)]
  else [c]

/-- A text in quotes. -/
def quoted (s : String) : List Char :=
  '"' :: s.toList.flatMap quotedChar ++ ['"']

def scalarChars : Scalar → List Char
  | .bool true => ['t', 'r', 'u', 'e']
  | .bool false => ['f', 'a', 'l', 's', 'e']
  | .integer i => (Text.decimal i.toInt).toList
  | .float x => (layout.write x).toList
  | .string text => quoted text

/-! ## The two forms -/

/-- How values are set apart. -/
inductive Form where
  /-- on one line, without blanks -/
  | compact
  /-- one value a line, two blanks for each level -/
  | pretty
  deriving DecidableEq, Repr

/-- What stands in front of a value inside `level` brackets. -/
def Form.newline : Form → Nat → List Char
  | .compact, _ => []
  | .pretty, level => '\n' :: List.replicate (2 * level) ' '

/-- What stands between a key and its value. -/
def Form.colon : Form → List Char
  | .compact => [':']
  | .pretty => [':', ' ']

/-- Parts with commas between them. -/
def Form.joined (form : Form) (level : Nat) : List (List Char) → List Char
  | [] => []
  | [part] => part
  | part :: rest => part ++ ',' :: form.newline level ++ form.joined level rest

/-- Parts inside brackets that stand at `level`.  Without parts the brackets touch. -/
def Form.bracketed (form : Form) (level : Nat) (opening closing : Char)
    (parts : List (List Char)) : List Char :=
  if parts.isEmpty then [opening, closing]
  else
    opening :: form.newline (level + 1) ++ form.joined (level + 1) parts ++ form.newline level
      ++ [closing]

mutual

/-- The characters of a value inside `level` brackets. -/
def chars (form : Form) (level : Nat) : Node → List Char
  | .null => ['n', 'u', 'l', 'l']
  | .scalar s => scalarChars s
  | .sequence items => form.bracketed level '[' ']' (itemChars form (level + 1) items)
  | .mapping entries => form.bracketed level '\x7b' '\x7d' (memberChars form (level + 1) entries)
  | .record _ fields => form.bracketed level '\x7b' '\x7d' (memberChars form (level + 1) fields)
  | .indirect n => chars form level n

/-- The characters of each item. -/
def itemChars (form : Form) (level : Nat) : List Node → List (List Char)
  | [] => []
  | n :: rest => chars form level n :: itemChars form level rest

/-- The characters of each key with its value. -/
def memberChars (form : Form) (level : Nat) : List (String × Node) → List (List Char)
  | [] => []
  | (key, n) :: rest =>
    (quoted key ++ form.colon ++ chars form level n) :: memberChars form level rest

end

/-- The JSON text of a document. -/
def write (form : Form) (n : Node) : String :=
  String.ofList (chars form 0 n)

/-- The JSON text of a scalar. -/
def scalarText (s : Scalar) : String :=
  String.ofList (scalarChars s)

end Json

end Polydoc
