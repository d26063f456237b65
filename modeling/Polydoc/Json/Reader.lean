/-
  Json/Reader.lean --- reading JSON text as a document.

  Nothing is accepted beyond the grammar of JSON: no comments, no commas behind the last item, no
  control characters inside a text.  Collections are nested at most 127 deep.  A key that an object
  repeats keeps its first place and takes its last value.
-/
import Polydoc.Json.Number
import Polydoc.Node.Basic

set_option autoImplicit false

namespace Polydoc

namespace Json

/-- How many arrays and objects may enclose each other. -/
def maxDepth : Nat := 127

/-- The characters that may stand between tokens. -/
def isSpace (c : Char) : Bool :=
  c = ' ' || c = '\t' || c = '\n' || c = '\r'

/-- The text from the first token on. -/
def skip (cs : List Char) : List Char := cs.dropWhile isSpace

/-! ## Texts -/

/-- The value of four hexadecimal digits. -/
def hexWord? (a b c d : Char) : Option Nat := do
  let a ← Text.hexValue? a
  let b ← Text.hexValue? b
  let c ← Text.hexValue? c
  let d ← Text.hexValue? d
  return ((a * 16 + b) * 16 + c) * 16 + d

def isHighSurrogate (n : Nat) : Bool := 0xD800 ≤ n && n ≤ 0xDBFF

def isLowSurrogate (n : Nat) : Bool := 0xDC00 ≤ n && n ≤ 0xDFFF

/-- The character of a surrogate pair. -/
def pairChar (high low : Nat) : Char :=
  Char.ofNat (0x10000 + (high - 0xD800) * 0x400 + (low - 0xDC00))

/-- The character that a backslash makes of the one behind it. -/
def escaped? : Char → Option Char
  | '"' => some '"'
  | '\\' => some '\\'
  | '/' => some '/'
  | 'b' => some '\x08'
  | 'f' => some '\x0c'
  | 'n' => some '\n'
  | 'r' => some '\r'
  | 't' => some '\t'
  | _ => none

/-- Puts a character in front of a text that is still being read. -/
def prepend (c : Char) (r : Option (List Char × List Char)) : Option (List Char × List Char) :=
  r.map fun (text, rest) => (c :: text, rest)

/-- The characters up to the closing quote, and the rest behind it. -/
def text : List Char → Option (List Char × List Char)
  | [] => none
  | '"' :: rest => some ([], rest)
  | '\\' :: 'u' :: a :: b :: c :: d :: rest =>
    match hexWord? a b c d with
    | none => none
    | some n =>
      if isLowSurrogate n then none
      else if isHighSurrogate n then
        match rest with
        | '\\' :: 'u' :: e :: f :: g :: h :: rest =>
          match hexWord? e f g h with
          | none => none
          | some m => if isLowSurrogate m then prepend (pairChar n m) (text rest) else none
        | _ => none
      else prepend (Char.ofNat n) (text rest)
  | '\\' :: c :: rest =>
    match escaped? c with
    | some c => prepend c (text rest)
    | none => none
  | c :: rest => if c = '\\' ∨ c.toNat < 0x20 then none else prepend c (text rest)

/-! ## Values -/

mutual

/-- The value in front of a text, nested at most `depth` deep. -/
def value : Nat → Nat → List Char → Option (Node × List Char)
  | 0, _, _ => none
  | fuel + 1, depth, cs =>
    match skip cs with
    | [] => none
    | 'n' :: 'u' :: 'l' :: 'l' :: rest => some (.null, rest)
    | 't' :: 'r' :: 'u' :: 'e' :: rest => some (.bool true, rest)
    | 'f' :: 'a' :: 'l' :: 's' :: 'e' :: rest => some (.bool false, rest)
    | '"' :: rest => (text rest).map fun (s, rest) => (.string (String.ofList s), rest)
    | '[' :: rest =>
      match depth with
      | 0 => none
      | depth + 1 =>
        match skip rest with
        | ']' :: rest => some (.sequence [], rest)
        | rest => (items fuel depth rest).map fun (ns, rest) => (.sequence ns, rest)
    | '\x7b' :: rest =>
      match depth with
      | 0 => none
      | depth + 1 =>
        match skip rest with
        | '\x7d' :: rest => some (.mapping [], rest)
        | rest =>
          (members fuel depth rest).map fun (es, rest) => (.mapping (Entries.ofList es), rest)
    | cs => (number cs).map fun (s, rest) => (.scalar s, rest)

/-- The items of an array, up to its closing bracket. -/
def items : Nat → Nat → List Char → Option (List Node × List Char)
  | 0, _, _ => none
  | fuel + 1, depth, cs =>
    match value fuel depth cs with
    | none => none
    | some (n, rest) =>
      match skip rest with
      | ']' :: rest => some ([n], rest)
      | ',' :: rest => (items fuel depth rest).map fun (ns, rest) => (n :: ns, rest)
      | _ => none

/-- The members of an object, up to its closing brace. -/
def members : Nat → Nat → List Char → Option (List (String × Node) × List Char)
  | 0, _, _ => none
  | fuel + 1, depth, cs =>
    match skip cs with
    | '"' :: rest =>
      match text rest with
      | none => none
      | some (key, rest) =>
        match skip rest with
        | ':' :: rest =>
          match value fuel depth rest with
          | none => none
          | some (n, rest) =>
            let e := (String.ofList key, n)
            match skip rest with
            | '\x7d' :: rest => some ([e], rest)
            | ',' :: rest => (members fuel depth rest).map fun (es, rest) => (e :: es, rest)
            | _ => none
        | _ => none
    | _ => none

end

/-- The document that a JSON text holds: one value with nothing but blanks around it. -/
def readChars (cs : List Char) : Option Node :=
  match value (2 * cs.length + 2) maxDepth cs with
  | some (n, rest) => if (skip rest).isEmpty then some n else none
  | none => none

/-- The document that a JSON text holds. -/
def read? (text : String) : Option Node := readChars text.toList

end Json

end Polydoc
