/-
  Yaml/ScalarText.lean --- the texts of scalars: plain, quoted, literal and folded.

  Inside a plain or quoted scalar the blanks around a line break do not count, one break is a
  space, and of several the first is dropped.  Texts under construction are kept with the last
  character first.
-/
import Polydoc.Text.Digit
import Polydoc.Yaml.Cursor

set_option autoImplicit false

namespace Polydoc

namespace Yaml

/-! ## Gaps between words -/

/-- What stands between two words: blanks on one line, or breaks. -/
structure Gap where
  blanks : List Char
  /-- the text of the first break -/
  first : List Char
  /-- the texts of the other breaks -/
  others : List Char
  /-- whether the gap reaches into another line -/
  broken : Bool

def Gap.none : Gap := ⟨[], [], [], false⟩

/-- The gap behind a break that is escaped and so stands for nothing. -/
def Gap.afterEscape : Gap := ⟨[], [], [], true⟩

/-- The text that a gap stands for. -/
def Gap.text (g : Gap) : List Char :=
  if g.broken then
    if g.first = ['\n'] then if g.others.isEmpty then [' '] else g.others
    else g.first ++ g.others
  else g.blanks

/-- Reads a gap.  A tab to the left of column `indent` on a further line is an error. -/
def gap (indent : Nat) : Nat → Cursor → Gap → Option (Gap × Cursor)
  | 0, _, _ => .none
  | fuel + 1, c, g =>
    match c.rest with
    | [] => some (g, c)
    | ch :: _ =>
      if isBlank ch then
        if g.broken then
          if ch = '\t' ∧ c.column < indent then .none else gap indent fuel (c.skip 1) g
        else gap indent fuel (c.skip 1) { g with blanks := g.blanks ++ [ch] }
      else if isBreak ch then
        let (text, c) := c.skipBreak
        if g.broken then gap indent fuel c { g with others := g.others ++ text }
        else gap indent fuel c ⟨[], text, [], true⟩
      else some (g, c)

/-! ## Plain scalars -/

def isFlowIndicator (c : Char) : Bool :=
  c = ',' || c = '[' || c = ']' || c = '\x7b' || c = '\x7d'

/-- The word in front of a text.  A colon ends it when a blank follows, and in flow collections the
indicators of these end it too; there, a colon right in front of an indicator is an error. -/
def word (flow : Bool) (acc : List Char) : List Char → Option (List Char)
  | [] => some acc
  | ':' :: rest =>
    if endsWord rest then some acc
    else if flow && (match rest with
        | c :: _ => isFlowIndicator c || c == '?'
        | [] => false) then .none
    else word flow (':' :: acc) rest
  | c :: rest =>
    if isBlank c || isBreak c || (flow && isFlowIndicator c) then some acc
    else word flow (c :: acc) rest

/-- The words of a plain scalar.  The answer tells whether the scalar was followed by a break. -/
def plainWords (flow : Bool) (indent : Nat) :
    Nat → Cursor → List Char → Gap → Option (List Char × Bool × Cursor)
  | 0, _, _, _ => .none
  | fuel + 1, c, acc, g =>
    if c.atDocumentMark || c.rest.head? = some '#' then some (acc, g.broken, c)
    else
      match word flow [] c.rest with
      | .none => .none
      | some w =>
        let (acc, g) := if w.isEmpty then (acc, g) else (w ++ g.text.reverse ++ acc, Gap.none)
        let c := c.skip w.length
        match c.rest with
        | [] => some (acc, g.broken, c)
        | ch :: _ =>
          if isBlank ch || isBreak ch then
            match gap indent (c.rest.length + 1) c g with
            | .none => .none
            | some (g, c) =>
              if !flow && c.column < indent then some (acc, g.broken, c)
              else plainWords flow indent fuel c acc g
          else some (acc, g.broken, c)

/-- A plain scalar, whose further lines reach at least to column `indent`. -/
def plainScalar (flow : Bool) (indent : Nat) (c : Cursor) : Option (String × Bool × Cursor) :=
  (plainWords flow indent (c.rest.length + 1) c [] Gap.none).map fun (acc, broken, c) =>
    (String.ofList acc.reverse, broken, c)

/-! ## Quoted scalars -/

/-- The character with that code point, if there is one. -/
def charOf? (n : Nat) : Option Char :=
  if n.isValidChar then some (Char.ofNat n) else .none

/-- What a backslash makes of the text behind it: a character, and how many characters it took. -/
def escape? : List Char → Option (Char × Nat)
  | [] => .none
  | c :: rest =>
    let coded (n : Nat) : Option (Char × Nat) :=
      if rest.length < n then .none
      else ((Text.natOf? 16 (rest.take n)).bind charOf?).map fun ch => (ch, n + 1)
    match c with
    | '0' => some ('\x00', 1)
    | 'a' => some ('\x07', 1)
    | 'b' => some ('\x08', 1)
    | 't' => some ('\t', 1)
    | '\t' => some ('\t', 1)
    | 'n' => some ('\n', 1)
    | 'v' => some ('\x0b', 1)
    | 'f' => some ('\x0c', 1)
    | 'r' => some ('\r', 1)
    | 'e' => some ('\x1b', 1)
    | ' ' => some (' ', 1)
    | '"' => some ('"', 1)
    | '/' => some ('/', 1)
    | '\\' => some ('\\', 1)
    | 'N' => some ('\u0085', 1)
    | '_' => some ('\u00a0', 1)
    | 'L' => some ('\u2028', 1)
    | 'P' => some ('\u2029', 1)
    | 'x' => coded 2
    | 'u' => coded 4
    | 'U' => coded 8
    | _ => .none

/-- The text of a quoted scalar up to its closing quote. -/
def quotedText (single : Bool) : Nat → Cursor → List Char → Option (List Char × Cursor)
  | 0, _, _ => .none
  | fuel + 1, c, acc =>
    match c.rest with
    | [] => .none
    | ch :: rest =>
      if c.atDocumentMark then .none
      else if isBlank ch || isBreak ch then
        match gap 0 (c.rest.length + 1) c Gap.none with
        | .none => .none
        | some (g, c) => quotedText single fuel c (g.text.reverse ++ acc)
      else if single then
        if ch = '\x27' then
          if rest.head? = some '\x27' then quotedText single fuel (c.skip 2) ('\x27' :: acc)
          else some (acc, c.skip 1)
        else quotedText single fuel (c.skip 1) (ch :: acc)
      else if ch = '"' then some (acc, c.skip 1)
      else if ch = '\\' then
        if rest.head?.any isBreak then
          let c := (c.skip 1).skipBreak.2
          if c.rest.head? = some '"' then quotedText single fuel c acc
          else
            match gap 0 (c.rest.length + 1) c Gap.afterEscape with
            | .none => .none
            | some (g, c) => quotedText single fuel c (g.text.reverse ++ acc)
        else
          match escape? rest with
          | .none => .none
          | some (e, n) => quotedText single fuel (c.skip (n + 1)) (e :: acc)
      else quotedText single fuel (c.skip 1) (ch :: acc)

/-- A quoted scalar, from its opening quote on. -/
def quotedScalar (single : Bool) (c : Cursor) : Option (String × Cursor) :=
  (quotedText single (c.rest.length + 1) (c.skip 1) []).map fun (acc, c) =>
    (String.ofList acc.reverse, c)

/-! ## Literal and folded scalars -/

/-- What happens to the breaks at the end of a block scalar. -/
inductive Chomp where
  /-- all are dropped -/
  | strip
  /-- one is kept -/
  | clip
  /-- all are kept -/
  | keep
  deriving DecidableEq, Repr

/-- The mark that says what to chomp, if there is one. -/
def chompMark? (c : Cursor) : Option (Chomp × Cursor) :=
  match c.rest with
  | '+' :: _ => some (.keep, c.skip 1)
  | '-' :: _ => some (.strip, c.skip 1)
  | _ => .none

/-- The digit that gives the indentation, or `none` inside if there is none.  It is not zero. -/
def indentMark? (c : Cursor) : Option (Option (Nat × Cursor)) :=
  match c.rest with
  | ch :: _ =>
    if ch = '0' then .none
    else if ch.isDigit then some (some (ch.toNat - 48, c.skip 1))
    else some .none
  | [] => some .none

/-- The header of a block scalar behind its indicator: what to chomp, and the indentation if it is
given. -/
def blockHeader (c : Cursor) : Option (Chomp × Nat × Cursor) :=
  match chompMark? c with
  | some (how, c) =>
    match indentMark? c with
    | .none => .none
    | some (some (n, c)) => some (how, n, c)
    | some .none => some (how, 0, c)
  | .none =>
    match indentMark? c with
    | .none => .none
    | some .none => some (.clip, 0, c)
    | some (some (n, c)) =>
      match chompMark? c with
      | some (how, c) => some (how, n, c)
      | .none => some (.clip, n, c)

/-- Reads the indentation and the empty lines in front of a line of a block scalar: the breaks, the
deepest column reached, and the place.  While the indentation is not known (`indent = 0`) every
space belongs to it. -/
def blockBreaks (indent : Nat) :
    Nat → Cursor → List Char → Nat → Option (List Char × Nat × Cursor)
  | 0, _, _, _ => .none
  | fuel + 1, c, breaks, deepest =>
    let width := (c.rest.takeWhile (· == ' ')).length
    let c := c.skip (if indent = 0 then width else min width (indent - c.column))
    let deepest := max deepest c.column
    match c.rest with
    | '\t' :: _ =>
      if indent = 0 ∨ c.column < indent then .none else some (breaks, deepest, c)
    | ch :: _ =>
      if isBreak ch then
        let (text, c) := c.skipBreak
        blockBreaks indent fuel c (breaks ++ text) deepest
      else some (breaks, deepest, c)
    | [] => some (breaks, deepest, c)

/-- The lines of a block scalar.  `last` is the break behind the line before, `breaks` the empty
lines behind that, and `blank` tells whether that line started with a blank. -/
def blockLines (literal : Bool) (indent : Nat) :
    Nat → Cursor → List Char → List Char → List Char → Bool →
      Option (List Char × List Char × List Char × Cursor)
  | 0, _, _, _, _, _ => .none
  | fuel + 1, c, acc, last, breaks, blank =>
    match c.rest with
    | [] => some (acc, last, breaks, c)
    | ch :: _ =>
      if c.column = indent then
        let starts := isBlank ch
        let joined :=
          if !literal && last == ['\n'] && !blank && !starts then
            if breaks.isEmpty then [' '] else breaks
          else last ++ breaks
        let line := c.rest.takeWhile fun ch => !isBreak ch
        let (last, c) := (c.skip line.length).skipBreak
        match blockBreaks indent (c.rest.length + 1) c [] 0 with
        | .none => .none
        | some (breaks, _, c) =>
          blockLines literal indent fuel c (line.reverse ++ joined.reverse ++ acc) last breaks starts
      else some (acc, last, breaks, c)

/-- A literal or folded scalar, from its indicator on, inside a collection that is indented by
`parent` columns (`-1` outside of all). -/
def blockScalar (literal : Bool) (parent : Int) (c : Cursor) : Option (String × Cursor) := do
  let (how, given, c) ← blockHeader (c.skip 1)
  let c ← c.pastLine?
  let base := (max parent 0).toNat
  let (breaks, deepest, c) ←
    blockBreaks (if given = 0 then 0 else base + given) (c.rest.length + 1) c [] 0
  let indent :=
    if given = 0 then max (max deepest (parent + 1).toNat) 1 else base + given
  let (acc, last, breaks, c) ←
    blockLines literal indent (c.rest.length + 1) c [] [] breaks false
  let tail :=
    match how with
    | .strip => []
    | .clip => last
    | .keep => last ++ breaks
  return (String.ofList (acc.reverse ++ tail), c)

end Yaml

end Polydoc
