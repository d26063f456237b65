/-
  Toml/Statement.lean --- the lines of a text: headers, and keys with their values.

  A text is a list of sections.  The first one belongs to the outermost table and has no header;
  each header starts another.
-/
import Polydoc.Toml.Draft
import Polydoc.Toml.Number

set_option autoImplicit false

namespace Polydoc

namespace Toml

/-! ## Between statements -/

mutual

/-- The text behind blanks, line breaks and comments. -/
def skipSpace? : List Char → Option (List Char)
  | [] => some []
  | '\r' :: '\n' :: rest => skipSpace? rest
  | c :: rest =>
    if isBlank c || c = '\n' then skipSpace? rest
    else if c = '#' then skipComment? rest
    else some (c :: rest)

/-- The text behind the rest of a comment, which a line break must end, and what follows it. -/
def skipComment? : List Char → Option (List Char)
  | [] => none
  | '\n' :: rest => skipSpace? rest
  | '\r' :: '\n' :: rest => skipSpace? rest
  | c :: rest => if isPrintable c then skipComment? rest else none

end

/-- The text behind a comment, if one starts here. -/
def pastComment : List Char → List Char
  | '#' :: rest => rest.dropWhile isPrintable
  | cs => cs

/-- The text behind the end of a line, before which only blanks and a comment may stand. -/
def endLine? (cs : List Char) : Option (List Char) :=
  match pastComment (skipBlanks cs) with
  | [] => some []
  | cs => lineBreak? cs

/-! ## Values -/

/-- How many arrays and tables may enclose each other. -/
def maxDepth : Nat := 79

/-- How many parts a key may have. -/
def maxKeys : Nat := 79

mutual

/-- Reads a value, nested at most `depth` deep. -/
def value? : Nat → Nat → List Char → Option (Value × List Char)
  | 0, _, _ => none
  | _ + 1, _, 't' :: 'r' :: 'u' :: 'e' :: rest => some (.bool true, rest)
  | _ + 1, _, 'f' :: 'a' :: 'l' :: 's' :: 'e' :: rest => some (.bool false, rest)
  | fuel + 1, depth, '[' :: rest =>
    if depth = 0 then none
    else (items? fuel (depth - 1) rest).map fun (items, rest) => (.array items, rest)
  | fuel + 1, depth, '\x7b' :: rest =>
    if depth = 0 then none
    else
      (pairs? fuel (depth - 1) (skipBlanks rest)).bind fun (pairs, rest) =>
        (Draft.ofPairs? pairs).map fun entries => (.table entries, rest)
  | _ + 1, _, cs =>
    match text? cs with
    | some (text, rest) => some (.string text, rest)
    | none =>
      match dateTime? cs with
      | some (t, rest) => some (.dateTime t, rest)
      | none => number cs

/-- Reads the items of an array, up to its closing bracket. -/
def items? : Nat → Nat → List Char → Option (List Value × List Char)
  | 0, _, _ => none
  | fuel + 1, depth, cs =>
    match skipSpace? cs with
    | none => none
    | some (']' :: rest) => some ([], rest)
    | some cs =>
      match value? fuel depth cs with
      | none => none
      | some (v, rest) =>
        match skipSpace? rest with
        | some (']' :: rest) => some ([v], rest)
        | some (',' :: rest) => (items? fuel depth rest).map fun (vs, rest) => (v :: vs, rest)
        | _ => none

/-- Reads the pairs of an inline table, up to its closing brace. -/
def pairs? : Nat → Nat → List Char → Option (List (List String × Value) × List Char)
  | 0, _, _ => none
  | _ + 1, _, '\x7d' :: rest => some ([], rest)
  | fuel + 1, depth, cs =>
    match keys? maxKeys cs with
    | some (keys, '=' :: rest) =>
      match value? fuel depth (skipBlanks rest) with
      | none => none
      | some (v, rest) =>
        match skipBlanks rest with
        | '\x7d' :: rest => some ([(keys, v)], rest)
        | ',' :: rest =>
          match skipBlanks rest with
          | '\x7d' :: _ => none
          | rest => (pairs? fuel depth rest).map fun (ps, rest) => ((keys, v) :: ps, rest)
        | _ => none
    | _ => none

end

/-! ## Statements -/

/-- A line that is not empty. -/
inductive Statement where
  /-- the header of a table, or of one more table of an array -/
  | header (keys : List String) (ofArray : Bool)
  | pair (keys : List String) (value : Value)
  deriving Repr

/-- Reads a header behind its brackets, up to the brackets that close it. -/
def header? (ofArray : Bool) (cs : List Char) : Option (Statement × List Char) :=
  match keys? maxKeys cs, ofArray with
  | some (keys, ']' :: ']' :: rest), true => some (.header keys true, rest)
  | some (keys, ']' :: rest), false => some (.header keys false, rest)
  | _, _ => none

/-- Reads a statement, the end of its line apart. -/
def statement? : List Char → Option (Statement × List Char)
  | '[' :: '[' :: rest => header? true rest
  | '[' :: rest => header? false rest
  | cs =>
    match keys? maxKeys cs with
    | some (keys, '=' :: rest) =>
      (value? (2 * rest.length + 2) maxDepth (skipBlanks rest)).map fun (v, rest) =>
        (.pair keys v, rest)
    | _ => none

/-- Reads the lines of a text. -/
def statements? : Nat → List Char → Option (List Statement)
  | 0, _ => none
  | fuel + 1, cs =>
    match endLine? cs with
    | some [] => some []
    | some rest => statements? fuel rest
    | none =>
      match statement? (skipBlanks cs) with
      | none => none
      | some (s, rest) =>
        match endLine? rest with
        | none => none
        | some [] => some [s]
        | some rest => (statements? fuel rest).map (s :: ·)

end Toml

end Polydoc
