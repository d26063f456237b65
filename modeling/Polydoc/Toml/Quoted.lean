/-
  Toml/Quoted.lean --- texts in quotes, and keys.

  Between double quotes a backslash starts an escape, between single quotes everything stands for
  itself.  Three quotes of either sort enclose a text of several lines, which may end with one or
  two quotes of its own.
-/
import Polydoc.Text.Digit

set_option autoImplicit false

namespace Polydoc

namespace Toml

/-! ## Characters -/

/-- A blank within a line. -/
def isBlank (c : Char) : Bool := c = ' ' || c = '\t'

/-- The text from the first character on that is no blank. -/
def skipBlanks (cs : List Char) : List Char := cs.dropWhile isBlank

/-- The text behind a line break: LF, or CR and LF. -/
def lineBreak? : List Char → Option (List Char)
  | '\n' :: rest => some rest
  | '\r' :: '\n' :: rest => some rest
  | _ => none

/-- A character that may stand in a text or a comment: no control character but a tab. -/
def isPrintable (c : Char) : Bool :=
  c = '\t' || (' ' ≤ c && c ≤ '~') || 0x80 ≤ c.toNat

/-- A character of a key without quotes. -/
def isBareChar (c : Char) : Bool := c.isAlphanum || c = '-' || c = '_'

/-! ## Escapes -/

/-- The character whose code point has the given hexadecimal digits. -/
def codePoint? (digits : List Char) : Option Char :=
  (Text.natOf? 16 digits).bind fun n => if n.isValidChar then some (Char.ofNat n) else none

/-- The character that a backslash makes of the one behind it. -/
def escaped? : Char → Option Char
  | 'b' => some '\x08'
  | 't' => some '\t'
  | 'n' => some '\n'
  | 'f' => some '\x0c'
  | 'r' => some '\r'
  | '"' => some '"'
  | '\\' => some '\\'
  | _ => none

/-- Puts a character in front of a text that is still being read. -/
def prepend (c : Char) (r : Option (List Char × List Char)) : Option (List Char × List Char) :=
  r.map fun (text, rest) => (c :: text, rest)

/-- Puts the character of an escape in front of a text that is still being read. -/
def prependEscaped (c : Option Char) (r : Option (List Char × List Char)) :
    Option (List Char × List Char) :=
  c.bind fun c => prepend c r

/-! ## Texts of one line -/

/-- The text up to a closing double quote, and the rest behind it. -/
def basicText : List Char → Option (List Char × List Char)
  | [] => none
  | '"' :: rest => some ([], rest)
  | '\\' :: 'u' :: a :: b :: c :: d :: rest =>
    prependEscaped (codePoint? [a, b, c, d]) (basicText rest)
  | '\\' :: 'U' :: a :: b :: c :: d :: e :: f :: g :: h :: rest =>
    prependEscaped (codePoint? [a, b, c, d, e, f, g, h]) (basicText rest)
  | '\\' :: c :: rest => prependEscaped (escaped? c) (basicText rest)
  | c :: rest => if isPrintable c && c ≠ '\\' then prepend c (basicText rest) else none

/-- The text up to a closing single quote, and the rest behind it. -/
def literalText : List Char → Option (List Char × List Char)
  | [] => none
  | c :: rest =>
    if c = '\x27' then some ([], rest)
    else if isPrintable c then prepend c (literalText rest)
    else none

/-! ## Texts of several lines -/

/-- The end of a text behind three quotes: up to two more belong to the text. -/
def closing (quote : Char) : List Char → List Char × List Char
  | c :: d :: rest =>
    if c = quote ∧ d = quote then ([c, d], rest)
    else if c = quote then ([c], d :: rest)
    else ([], c :: d :: rest)
  | [c] => if c = quote then ([c], []) else ([], [c])
  | [] => ([], [])

/-- Whether nothing but blanks stands before the next line break. -/
def endsLine (cs : List Char) : Bool := (lineBreak? (skipBlanks cs)).isSome

/-- The text up to three double quotes, and the rest behind them.  A backslash at the end of a line
takes away the blanks and line breaks behind it, and `skipping` says that they are being left out. -/
def basicLines (skipping : Bool) : List Char → Option (List Char × List Char)
  | [] => none
  | '"' :: '"' :: '"' :: rest => some (closing '"' rest)
  | '\r' :: '\n' :: rest =>
    if skipping then basicLines true rest else prepend '\n' (basicLines false rest)
  | '\n' :: rest => if skipping then basicLines true rest else prepend '\n' (basicLines false rest)
  | '\\' :: 'u' :: a :: b :: c :: d :: rest =>
    prependEscaped (codePoint? [a, b, c, d]) (basicLines false rest)
  | '\\' :: 'U' :: a :: b :: c :: d :: e :: f :: g :: h :: rest =>
    prependEscaped (codePoint? [a, b, c, d, e, f, g, h]) (basicLines false rest)
  | '\\' :: c :: rest =>
    if endsLine (c :: rest) then basicLines true (c :: rest)
    else prependEscaped (escaped? c) (basicLines false rest)
  | c :: rest =>
    if skipping && isBlank c then basicLines true rest
    else if isPrintable c && c ≠ '\\' then prepend c (basicLines false rest)
    else none

/-- The text up to three single quotes, and the rest behind them. -/
def literalLines : List Char → Option (List Char × List Char)
  | [] => none
  | '\x27' :: '\x27' :: '\x27' :: rest => some (closing '\x27' rest)
  | '\r' :: '\n' :: rest => prepend '\n' (literalLines rest)
  | c :: rest => if c = '\n' || isPrintable c then prepend c (literalLines rest) else none

/-- What follows the quotes that open a text of several lines: a line break there does not count. -/
def firstLine (cs : List Char) : List Char := (lineBreak? cs).getD cs

/-! ## Texts and keys -/

/-- Reads a text of any form. -/
def text? : List Char → Option (String × List Char)
  | '"' :: '"' :: '"' :: rest => found (basicLines false (firstLine rest))
  | '"' :: rest => found (basicText rest)
  | '\x27' :: '\x27' :: '\x27' :: rest => found (literalLines (firstLine rest))
  | '\x27' :: rest => found (literalText rest)
  | _ => none
where
  found (r : Option (List Char × List Char)) : Option (String × List Char) :=
    r.map fun (text, rest) => (String.ofList text, rest)

/-- Reads a key without dots. -/
def simpleKey? : List Char → Option (String × List Char)
  | '"' :: rest => (basicText rest).map fun (key, rest) => (String.ofList key, rest)
  | '\x27' :: rest => (literalText rest).map fun (key, rest) => (String.ofList key, rest)
  | cs =>
    match cs.takeWhile isBareChar with
    | [] => none
    | key => some (String.ofList key, cs.dropWhile isBareChar)

/-- Reads keys with dots between them, of at most `most` parts; blanks around them do not count. -/
def keys? : Nat → List Char → Option (List String × List Char)
  | 0, _ => none
  | most + 1, cs =>
    match simpleKey? (skipBlanks cs) with
    | none => none
    | some (key, rest) =>
      match skipBlanks rest with
      | '.' :: rest => (keys? most rest).map fun (keys, rest) => (key :: keys, rest)
      | rest => some ([key], rest)

end Toml

end Polydoc
