/-
  Yaml/Tokens.lean --- the tokens of a YAML text, in order.

  Two things make this more than cutting the text into pieces.  Indentation opens and closes block
  collections.  And a key is only known as such when its colon is met: until then the place where
  it starts is remembered, and the key token is put there afterwards.
-/
import Polydoc.Yaml.Properties

set_option autoImplicit false

namespace Polydoc

namespace Yaml

/-- A place where a key may start: the number of its first token, and where it stands. -/
structure KeyPlace where
  number : Nat
  index : Nat
  line : Nat
  column : Nat
  /-- whether nothing but a key can stand there -/
  required : Bool

/-- The state of cutting a text into tokens. -/
structure Scanner where
  cursor : Cursor
  /-- the tokens so far -/
  tokens : Array Token
  /-- the indentation of the innermost block collection, `-1` outside of all -/
  indent : Int
  /-- the indentations of the collections around it, innermost first -/
  outer : List Int
  /-- whether a key may start here -/
  keyAllowed : Bool
  /-- the place where the key of the innermost collection may have started -/
  keyPlace : Option KeyPlace
  /-- the same for the collections around a flow collection, innermost first -/
  outerKeys : List (Option KeyPlace)

namespace Scanner

def start (cs : List Char) : Scanner where
  cursor := Cursor.start cs
  tokens := #[]
  indent := -1
  outer := []
  keyAllowed := true
  keyPlace := none
  outerKeys := []

/-- Whether the scanner is inside a flow collection. -/
def inFlow (s : Scanner) : Bool := !s.outerKeys.isEmpty

def emit (s : Scanner) (t : Token) : Scanner := { s with tokens := s.tokens.push t }

/-- Emits a token of one character. -/
def emitChar (s : Scanner) (t : Token) : Scanner :=
  { s.emit t with cursor := s.cursor.skip 1 }

/-- Puts a token in front of the one with that number. -/
def insertAt (s : Scanner) (number : Nat) (t : Token) : Scanner :=
  let tokens := s.tokens.toList
  { s with tokens := (tokens.take number ++ t :: tokens.drop number).toArray }

/-! ## Keys -/

/-- A place that no colon can follow any more: it is on another line, or too far back. -/
def isStale (c : Cursor) (k : KeyPlace) : Bool :=
  k.line < c.line || k.index + 1024 < c.index

/-- Forgets a stale place.  One that had to be a key is an error. -/
def dropStale (c : Cursor) : Option KeyPlace → Option (Option KeyPlace)
  | none => some none
  | some k =>
    if isStale c k then if k.required then none else some none
    else some (some k)

/-- Forgets all stale places. -/
def dropStaleKeys (s : Scanner) : Option Scanner := do
  let keyPlace ← dropStale s.cursor s.keyPlace
  let outerKeys ← s.outerKeys.mapM (dropStale s.cursor)
  return { s with keyPlace, outerKeys }

/-- Forgets the place where a key may have started. -/
def dropKey (s : Scanner) : Option Scanner :=
  match s.keyPlace with
  | some k => if k.required then none else some { s with keyPlace := none }
  | none => some s

/-- Remembers that a key may start here. -/
def saveKey (s : Scanner) : Option Scanner :=
  if s.keyAllowed then do
    let s ← s.dropKey
    return { s with
      keyPlace := some
        { number := s.tokens.size
          index := s.cursor.index
          line := s.cursor.line
          column := s.cursor.column
          required := !s.inFlow && s.indent == s.cursor.column } }
  else some s

/-! ## Indentation -/

/-- Opens a block collection at a column, if that is to the right of the one around it.  The token
goes to the end, or in front of the token with the given number. -/
def openBlock (s : Scanner) (column : Nat) (number : Option Nat) (t : Token) : Scanner :=
  if !s.inFlow && s.indent < column then
    let s := { s with indent := column, outer := s.indent :: s.outer }
    match number with
    | some n => s.insertAt n t
    | none => s.emit t
  else s

/-- Closes the block collections to the right of a column. -/
def closeBlocks (s : Scanner) (column : Int) : Scanner :=
  if s.inFlow then s
  else go s s.outer
where
  go (s : Scanner) : List Int → Scanner
    | [] => s
    | i :: outer =>
      if column < s.indent then go { s.emit .blockEnd with indent := i, outer := outer } outer
      else s

/-! ## Between tokens -/

/-- The place behind the blanks of a line and a comment.  A byte order mark in front of them does
not count, and tabs are no blanks where they could be taken for indentation. -/
def pastBlanks (s : Scanner) : Cursor :=
  let c := s.cursor
  let c := if c.column = 0 ∧ c.rest.head? = some '\ufeff' then c.skip 1 else c
  let tabs := s.inFlow || !s.keyAllowed
  (c.skipWhile fun ch => ch = ' ' || (tabs && ch = '\t')).skipComment

/-- Goes to the next token, past blanks, comments and breaks.  In block collections a key may start
on a new line. -/
def toNextToken : Nat → Scanner → Scanner
  | 0, s => s
  | fuel + 1, s =>
    let c := s.pastBlanks
    if c.rest.head?.any isBreak then
      toNextToken fuel
        { s with cursor := c.skipBreak.2, keyAllowed := s.keyAllowed || !s.inFlow }
    else { s with cursor := c }

/-! ## Tokens -/

/-- Ends the block structure in front of a directive or a document mark. -/
def endBlocks (s : Scanner) : Option Scanner := do
  let s ← (s.closeBlocks (-1)).dropKey
  return { s with keyAllowed := false }

def fetchEnd (s : Scanner) : Option Scanner := do
  let s ← s.endBlocks
  return s.emit .streamEnd

def fetchDirective (s : Scanner) : Option Scanner := do
  let s ← s.endBlocks
  let (t, c) ← directive s.cursor
  return { s.emit t with cursor := c }

def fetchDocumentMark (s : Scanner) (t : Token) : Option Scanner := do
  let s ← s.endBlocks
  return { s.emit t with cursor := s.cursor.skip 3 }

def fetchFlowStart (s : Scanner) (t : Token) : Option Scanner := do
  let s ← s.saveKey
  return { s.emitChar t with
    keyAllowed := true
    keyPlace := none
    outerKeys := s.keyPlace :: s.outerKeys }

def fetchFlowEnd (s : Scanner) (t : Token) : Option Scanner := do
  let s ← s.dropKey
  let s :=
    match s.outerKeys with
    | k :: outerKeys => { s with keyPlace := k, outerKeys }
    | [] => s
  return { s.emitChar t with keyAllowed := false }

def fetchFlowEntry (s : Scanner) : Option Scanner := do
  let s ← s.dropKey
  return { s.emitChar .flowEntry with keyAllowed := true }

def fetchBlockEntry (s : Scanner) : Option Scanner := do
  if !s.inFlow && !s.keyAllowed then none
  let s ← (s.openBlock s.cursor.column none .blockSequenceStart).dropKey
  return { s.emitChar .blockEntry with keyAllowed := true }

def fetchKey (s : Scanner) : Option Scanner := do
  if !s.inFlow && !s.keyAllowed then none
  let s ← (s.openBlock s.cursor.column none .blockMappingStart).dropKey
  return { s.emitChar .key with keyAllowed := !s.inFlow }

def fetchValue (s : Scanner) : Option Scanner := do
  match s.keyPlace with
  | some k =>
    let s := s.insertAt k.number .key
    let s := s.openBlock k.column (some k.number) .blockMappingStart
    return { s.emitChar .value with keyPlace := none, keyAllowed := false }
  | none =>
    if !s.inFlow && !s.keyAllowed then none
    let s := s.openBlock s.cursor.column none .blockMappingStart
    return { s.emitChar .value with keyAllowed := !s.inFlow }

/-- A token that may be the start of a key, read by `read`. -/
def fetchKeyStart (s : Scanner) (read : Scanner → Option (Token × Cursor)) : Option Scanner := do
  let s ← s.saveKey
  let (t, c) ← read s
  return { s.emit t with cursor := c, keyAllowed := false }

def fetchPlain (s : Scanner) : Option Scanner := do
  let s ← s.saveKey
  let (text, broken, c) ← plainScalar s.inFlow (s.indent + 1).toNat s.cursor
  return { s.emit (.scalar true text) with cursor := c, keyAllowed := broken }

def fetchBlockScalar (s : Scanner) (literal : Bool) : Option Scanner := do
  let s ← s.dropKey
  let (text, c) ← blockScalar literal s.indent s.cursor
  return { s.emit (.scalar false text) with cursor := c, keyAllowed := true }

/-- Whether a plain scalar may start with the text in front of the cursor. -/
def startsPlain (flow : Bool) : List Char → Bool
  | [] => false
  | c :: rest =>
    if c = '-' then !rest.head?.any isBlank
    else if c = '?' ∨ c = ':' then !flow && !endsWord rest
    else
      !(isBlank c || isBreak c
        || [',', '[', ']', '\x7b', '\x7d', '#', '&', '*', '!', '|', '>', '\x27', '"', '%', '@',
            '\x60'].contains c)

/-- The next token. -/
def fetch (s : Scanner) : Option Scanner := do
  let s ← (toNextToken (s.cursor.rest.length + 1) s).dropStaleKeys
  let s := s.closeBlocks s.cursor.column
  let c := s.cursor
  match c.rest with
  | [] => s.fetchEnd
  | ch :: rest =>
    if c.column = 0 ∧ ch = '%' then s.fetchDirective
    else if c.atDocumentMark then
      s.fetchDocumentMark (if ch = '-' then .documentStart else .documentEnd)
    else if ch = '[' then s.fetchFlowStart .flowSequenceStart
    else if ch = '\x7b' then s.fetchFlowStart .flowMappingStart
    else if ch = ']' then s.fetchFlowEnd .flowSequenceEnd
    else if ch = '\x7d' then s.fetchFlowEnd .flowMappingEnd
    else if ch = ',' then s.fetchFlowEntry
    else if ch = '-' ∧ endsWord rest then s.fetchBlockEntry
    else if ch = '?' ∧ (s.inFlow ∨ endsWord rest) then s.fetchKey
    else if ch = ':' ∧ (s.inFlow ∨ endsWord rest) then s.fetchValue
    else if ch = '*' then
      s.fetchKeyStart fun s => (anchorName s.cursor).map fun (name, c) => (.alias name, c)
    else if ch = '&' then
      s.fetchKeyStart fun s => (anchorName s.cursor).map fun (name, c) => (.anchor name, c)
    else if ch = '!' then
      s.fetchKeyStart fun s => (tag s.inFlow s.cursor).map fun (t, c) => (.tag t, c)
    else if ch = '|' ∧ !s.inFlow then s.fetchBlockScalar true
    else if ch = '>' ∧ !s.inFlow then s.fetchBlockScalar false
    else if ch = '\x27' then
      s.fetchKeyStart fun s =>
        (quotedScalar true s.cursor).map fun (text, c) => (.scalar false text, c)
    else if ch = '"' then
      s.fetchKeyStart fun s =>
        (quotedScalar false s.cursor).map fun (text, c) => (.scalar false text, c)
    else if startsPlain s.inFlow c.rest then s.fetchPlain
    else none

/-- Fetches tokens up to the end of the text. -/
def run : Nat → Scanner → Option (List Token)
  | 0, _ => none
  | fuel + 1, s =>
    match s.fetch with
    | none => none
    | some s => if s.tokens.back? = some .streamEnd then some s.tokens.toList else run fuel s

end Scanner

/-- The tokens of a text. -/
def tokens? (cs : List Char) : Option (List Token) :=
  if cs.all isAllowed then Scanner.run (cs.length + 2) (Scanner.start cs) else none

end Yaml

end Polydoc
