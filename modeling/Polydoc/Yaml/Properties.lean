/-
  Yaml/Properties.lean --- anchors, aliases, tags and directives in a YAML text.
-/
import Polydoc.Text.Digit
import Polydoc.Text.Utf8
import Polydoc.Yaml.ScalarText
import Polydoc.Yaml.Token

set_option autoImplicit false

namespace Polydoc

namespace Yaml

/-- Whether a name ends in front of a text: with a blank, a break or one of a few indicators. -/
def endsName : List Char → Bool
  | [] => true
  | ch :: _ =>
    isBlank ch || isBreak ch || ch = '?' || ch = ':' || ch = ',' || ch = ']' || ch = '\x7d'
      || ch = '%' || ch = '@' || ch = '\x60'

/-- The name behind `&` or `*`. -/
def anchorName (c : Cursor) : Option (String × Cursor) :=
  let c := c.skip 1
  let name := c.rest.takeWhile isWordChar
  let c := c.skip name.length
  if name.isEmpty || !endsName c.rest then none else some (String.ofList name, c)

/-! ## Tags -/

/-- A handle: `!`, or a word between two of them.  Read from a tag, it may turn out to be the start
of a suffix. -/
def tagHandle (directive : Bool) (c : Cursor) : Option (List Char × Cursor) :=
  match c.rest with
  | '!' :: rest =>
    let name := rest.takeWhile isWordChar
    let c := c.skip (name.length + 1)
    match c.rest with
    | '!' :: _ => some ('!' :: name ++ ['!'], c.skip 1)
    | _ => if directive && !name.isEmpty then none else some ('!' :: name, c)
  | _ => none

/-- A character of a URI.  Some indicators belong to it only where it is enclosed. -/
def isUriChar (enclosed : Bool) (c : Char) : Bool :=
  isWordChar c
    || [';', '/', '?', ':', '@', '&', '=', '+', '$', '.', '%', '!', '~', '*', '\x27', '(', ')'].contains c
    || (enclosed && [',', '[', ']'].contains c)

/-- The octet written as `%` and two hexadecimal digits. -/
def uriOctet? : List Char → Option Nat
  | '%' :: a :: b :: _ => do
    let a ← Text.hexValue? a
    let b ← Text.hexValue? b
    return 16 * a + b
  | _ => none

/-- How many octets a character has that starts with the given one. -/
def uriWidth? (octet : Nat) : Option Nat :=
  if octet < 0x80 then some 1
  else if octet < 0xC0 then none
  else if octet < 0xE0 then some 2
  else if octet < 0xF0 then some 3
  else if octet < 0xF8 then some 4
  else none

/-- The octets of one escaped character. -/
def uriEscape (cs : List Char) : Option (List UInt8) := do
  let lead ← uriOctet? cs
  let width ← uriWidth? lead
  let more ← (List.range (width - 1)).mapM fun i => do
    let octet ← uriOctet? (cs.drop (3 * (i + 1)))
    if 0x80 ≤ octet ∧ octet < 0xC0 then some (UInt8.ofNat octet) else none
  return UInt8.ofNat lead :: more

/-- The octets of a URI and the place behind it. -/
def uriOctets (enclosed : Bool) : Nat → Cursor → List UInt8 → Option (List UInt8 × Cursor)
  | 0, _, _ => none
  | fuel + 1, c, acc =>
    match c.rest with
    | [] => some (acc, c)
    | ch :: _ =>
      if ch = '%' then
        match uriEscape c.rest with
        | some octets => uriOctets enclosed fuel (c.skip (3 * octets.length)) (acc ++ octets)
        | none => none
      else if isUriChar enclosed ch then
        uriOctets enclosed fuel (c.skip 1) (acc ++ Text.encodeChar ch)
      else some (acc, c)

/-- A URI that starts with `head`.  Together they are not empty, and the octets are a text. -/
def uri (enclosed : Bool) (head : List Char) (c : Cursor) : Option (String × Cursor) := do
  let (octets, c) ← uriOctets enclosed (c.rest.length + 1) c []
  if head.isEmpty && octets.isEmpty then none
  let text ← Text.decode? octets
  return (String.ofList (head.drop 1 ++ text), c)

/-- A tag that is written out in full between `!<` and `>`. -/
def verbatimTag (c : Cursor) : Option (RawTag × Cursor) := do
  let (suffix, c) ← uri true [] (c.skip 2)
  match c.rest with
  | '>' :: _ => some (⟨"", suffix⟩, c.skip 1)
  | _ => none

/-- A tag that starts with a handle, or with a single `!` that belongs to the suffix or is all. -/
def shorthandTag (c : Cursor) : Option (RawTag × Cursor) := do
  let (handle, c) ← tagHandle false c
  if 2 ≤ handle.length && handle.getLast? == some '!' then
    (uri false [] c).map fun (suffix, c) => (⟨String.ofList handle, suffix⟩, c)
  else
    (uri false handle c).map fun (suffix, c) =>
      (if suffix.isEmpty then ⟨"", "!"⟩ else ⟨"!", suffix⟩, c)

/-- A tag, from its `!` on. -/
def tag (flow : Bool) (c : Cursor) : Option (RawTag × Cursor) := do
  let (tag, c) ← (match c.rest with
    | '!' :: '<' :: _ => verbatimTag c
    | _ => shorthandTag c)
  if endsWord c.rest || (flow && c.rest.head? == some ',') then some (tag, c) else none

/-! ## Directives -/

/-- A number of at most nine digits. -/
def versionNumber (c : Cursor) : Option (Nat × Cursor) :=
  let digits := c.rest.takeWhile Char.isDigit
  if digits.isEmpty || 9 < digits.length then none
  else some (Text.natOfDigits digits, c.skip digits.length)

/-- The version that a directive asks for. -/
def versionDirective (c : Cursor) : Option (Token × Cursor) := do
  let (major, c) ← versionNumber c
  match c.rest with
  | '.' :: _ =>
    (versionNumber (c.skip 1)).map fun (minor, c) => (.versionDirective major minor, c)
  | _ => none

/-- The handle that a directive declares, and what it stands for. -/
def tagDirective (c : Cursor) : Option (Token × Cursor) := do
  let (handle, c) ← tagHandle true c
  if c.rest.head?.any isBlank then do
    let (start, c) ← uri true [] (c.skipWhile isBlank)
    if endsWord c.rest then some (.tagDirective (String.ofList handle) start, c) else none
  else none

/-- What a directive of the given name says. -/
def namedDirective (name : List Char) (c : Cursor) : Option (Token × Cursor) :=
  if name = "YAML".toList then versionDirective c
  else if name = "TAG".toList then tagDirective c
  else none

/-- A directive, from its `%` up to the next line. -/
def directive (c : Cursor) : Option (Token × Cursor) := do
  let c := c.skip 1
  let name := c.rest.takeWhile isWordChar
  let c := c.skip name.length
  if name.isEmpty || !endsWord c.rest then none
  else do
    let (token, c) ← namedDirective name (c.skipWhile isBlank)
    let c ← c.pastLine?
    return (token, c)

end Yaml

end Polydoc
