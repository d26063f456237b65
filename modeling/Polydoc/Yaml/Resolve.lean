/-
  Yaml/Resolve.lean --- from trees to values: what plain scalars and tags mean, and aliases replaced
  by what they stand for.

  A plain scalar is null, a boolean, an integer or a float if it is written like one, and a text
  otherwise.  Collections are nested at most 128 deep, and a document may use aliases at most a
  hundred times as often as it has events.
-/
import Polydoc.Text.Digit
import Polydoc.Yaml.Tree
import Polydoc.Yaml.Value
import Polydoc.Yaml.ScalarText

set_option autoImplicit false

namespace Polydoc

namespace Yaml

/-! ## Plain scalars -/

def isNullText (s : String) : Bool :=
  s = "null" || s = "Null" || s = "NULL" || s = "~"

def boolOf? (s : String) : Option Bool :=
  if s = "true" ∨ s = "True" ∨ s = "TRUE" then some true
  else if s = "false" ∨ s = "False" ∨ s = "FALSE" then some false
  else none

/-- Whether a text is a zero with further digits behind it, which is no number. -/
def hasLeadingZero (cs : List Char) : Bool :=
  let cs :=
    match cs with
    | '-' :: rest => rest
    | '+' :: rest => rest
    | cs => cs
  match cs with
  | '0' :: c :: rest => (c :: rest).all Char.isDigit
  | _ => false

/-- The digits behind `0x`, `0o` or `0b`, and the radix. -/
def radixForm : List Char → Option (Nat × List Char)
  | '0' :: 'x' :: rest => some (16, rest)
  | '0' :: 'o' :: rest => some (8, rest)
  | '0' :: 'b' :: rest => some (2, rest)
  | _ => none

/-- The integer that a text is written like, of any size. -/
def integerOf? (cs : List Char) : Option Int :=
  let decimal (digits : List Char) : Option Nat :=
    if hasLeadingZero cs then none else Text.natOf? 10 digits
  let unsigned (cs : List Char) : Option Nat :=
    match radixForm cs with
    | some (radix, digits) => (Text.natOf? radix digits).orElse fun _ => decimal cs
    | none => decimal cs
  match cs with
  | '-' :: rest => (unsigned rest).map fun n => -(n : Int)
  | '+' :: rest => (unsigned rest).map fun n => (n : Int)
  | cs => (unsigned cs).map fun n => (n : Int)

/-- The parts of a decimal: digits with a point somewhere among them or none, and an exponent. -/
def decimalOf? (cs : List Char) : Option (Nat × Int) := do
  let whole := cs.takeWhile Char.isDigit
  let cs := cs.dropWhile Char.isDigit
  let (fraction, cs) :=
    match cs with
    | '.' :: rest => (rest.takeWhile Char.isDigit, rest.dropWhile Char.isDigit)
    | cs => ([], cs)
  if whole.isEmpty && fraction.isEmpty then none
  let exponent ←
    match cs with
    | [] => some (0 : Int)
    | c :: rest =>
      if c = 'e' ∨ c = 'E' then
        match rest with
        | '-' :: ds => if ds.all Char.isDigit then (Text.natOf? 10 ds).map fun n => -(n : Int) else none
        | '+' :: ds => if ds.all Char.isDigit then (Text.natOf? 10 ds).map fun n => (n : Int) else none
        | ds => if ds.all Char.isDigit then (Text.natOf? 10 ds).map fun n => (n : Int) else none
      else none
  return (Text.natOfDigits (whole ++ fraction), exponent - fraction.length)

/-- The float that a text is written like. -/
def floatOf? (s : String) : Option Binary64 :=
  let finite (negative : Bool) (cs : List Char) : Option Binary64 :=
    match decimalOf? cs with
    | some (digits, exponent) =>
      let x := Binary64.ofScientific negative digits exponent
      if x.isFinite then some x else none
    | none => none
  if s = ".inf" ∨ s = ".Inf" ∨ s = ".INF" ∨ s = "+.inf" ∨ s = "+.Inf" ∨ s = "+.INF" then
    some (Binary64.infinity false)
  else if s = "-.inf" ∨ s = "-.Inf" ∨ s = "-.INF" then some (Binary64.infinity true)
  else if s = ".nan" ∨ s = ".NaN" ∨ s = ".NAN" then some Binary64.nan
  else
    match s.toList with
    | '-' :: rest => finite true rest
    | '+' :: rest => finite false rest
    | cs => finite false cs

/-- The integers of 64 bits, with or without sign. -/
def fitsWord (n : Int) : Bool := -2 ^ 63 ≤ n && n < 2 ^ 64

/-- The integers that are refused: they have up to 128 bits, but do not fit a word. -/
def isWide (n : Int) : Bool := !fitsWord n && (-2 ^ 127 ≤ n && n < 2 ^ 128)

/-- The value of an integer: `none` if the text is not written like one that can be an integer, and
`none` inside if it is one that is refused. -/
def integerValue (s : String) : Option (Option Value) :=
  match integerOf? s.toList with
  | none => none
  | some n =>
    if fitsWord n then some (some (.number (.integer n)))
    else if isWide n then some none
    else none

/-- The value of a plain scalar. -/
def plainValue (s : String) : Option Value :=
  if s.isEmpty || isNullText s then some .null
  else
    match boolOf? s with
    | some b => some (.bool b)
    | none =>
      match integerValue s with
      | some v => v
      | none =>
        if hasLeadingZero s.toList then some (.string s)
        else
          match floatOf? s with
          | some x => some (.number (.float x))
          | none => some (.string s)

/-! ## Tags -/

def coreTag (name : String) : String := "tag:yaml.org,2002:" ++ name

/-- The value of a scalar that has no tag of its own. -/
def untaggedValue (plain : Bool) (text : String) : Option Value :=
  if plain then plainValue text else some (.string text)

/-- The value of a scalar with a tag that is not the application's own. -/
def scalarValue (tag : Option String) (plain : Bool) (text : String) : Option Value :=
  match tag with
  | none => untaggedValue plain text
  | some tag =>
    if tag = coreTag "bool" then (boolOf? text).map .bool
    else if tag = coreTag "int" then (integerValue text).join
    else if tag = coreTag "float" then (floatOf? text).map fun x => .number (.float x)
    else if tag = coreTag "null" then if isNullText text then some .null else none
    else some (.string text)

/-- The name of a tag of the application's own: one that starts with an exclamation mark. -/
def ownTag (tag : Option String) : Option String :=
  match tag with
  | some tag =>
    match tag.toList with
    | '!' :: c :: rest => some (String.ofList (c :: rest))
    | ['!'] => some tag
    | _ => none
  | none => none

/-- Puts a tag of the application's own around a value. -/
def withTag (tag : Option String) (v : Value) : Value :=
  match ownTag tag with
  | some name => .tagged name v
  | none => v

/-! ## Collections and aliases -/

/-- Adds an entry; a key that is there already is an error. -/
def addEntry (entries : List (Value × Value)) (k v : Value) : Option (List (Value × Value)) :=
  if entries.any fun e => Value.same k e.1 then none else some (entries ++ [(k, v)])

/-- What the aliases of a document stand for, and how often they may be used. -/
structure Anchors where
  nodes : List (Nat × Tree)
  limit : Nat

/-- Follows an alias, and counts it. -/
def Anchors.follow (anchors : Anchors) (t : Tree) (used : Nat) : Option (Tree × Nat) :=
  match t with
  | .alias number =>
    if anchors.limit < used + 1 then none
    else (anchors.nodes.lookup number).map fun t => (t, used + 1)
  | t => some (t, used)

/-- The value of a tree inside which `depth` collections may enclose each other, less one, and how
often aliases were used. -/
def valueOf (anchors : Anchors) : Nat → Tree → Nat → Option (Value × Nat)
  | 0, _, _ => none
  | depth + 1, t, used =>
    match anchors.follow t used with
    | none => none
    | some (.alias _, _) => none
    | some (.scalar mark plain text, used) =>
      let value :=
        if (ownTag mark.tag).isSome then untaggedValue plain text
        else scalarValue mark.tag plain text
      value.map fun v => (withTag mark.tag v, used)
    | some (.sequence mark items, used) => do
      let (items, used) ←
        if depth = 0 then none
        else
          items.foldlM (fun (acc, used) t => do
              let (v, used) ← valueOf anchors depth t used
              return (acc ++ [v], used))
            ([], used)
      return (withTag mark.tag (.sequence items), used)
    | some (.mapping mark entries, used) => do
      let (entries, used) ←
        if depth = 0 then none
        else
          entries.foldlM (fun (acc, used) (k, v) => do
              let (k, used) ← valueOf anchors depth k used
              let (v, used) ← valueOf anchors depth v used
              let acc ← addEntry acc k v
              return (acc, used))
            ([], used)
      return (withTag mark.tag (.mapping entries), used)

/-- How many collections may enclose each other. -/
def maxDepth : Nat := 128

/-- The value of a document. -/
def Tree.value? (t : Tree) : Option Value :=
  (valueOf ⟨t.anchors [], 100 * t.events⟩ (maxDepth + 1) t 0).map Prod.fst

/-- The value that a text holds; a text without a document holds null. -/
def ofTokens? (tokens : List Token) : Option Value :=
  match document? tokens with
  | none => none
  | some none => some .null
  | some (some t) => t.value?

end Yaml

end Polydoc
