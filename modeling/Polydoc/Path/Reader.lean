/-
  Path/Reader.lean --- reading a path from its written form.

  The grammar is `['/'] [segment ('/' segment)* ['/']]`, where a segment is a bare name (a letter,
  then letters and numerals), a quoted name in which a backslash takes the next character as it is,
  `.` or `..`.

  The reader is a machine that looks at one character at a time and may hand the same character to
  its next mode.  It does so only towards a mode of lower rank, so that it takes at most three
  turns on each character.
-/
import Polydoc.Path.Basic
import Polydoc.Text.Letter

set_option autoImplicit false

namespace Polydoc

namespace Path

/-! ## Errors -/

/-- What would have been allowed in place of an unexpected character. -/
inductive Expected where
  | letterFirst
  | letterOrDigit
  | slash
  | dotOrSlash
  deriving DecidableEq, Repr

def Expected.message : Expected → String
  | .letterFirst => "a non-enclosed path element must start with a letter"
  | .letterOrDigit => "a non-enclosed path may only contain letters and digits"
  | .slash => "expected '/'"
  | .dotOrSlash => "expected '.' or '/'"

/-- Why a text is not a path.  Positions count characters from zero. -/
inductive ReadError where
  /-- a character that cannot stand at that position -/
  | unexpectedCharacter (position : Nat) (found : Char) (expected : Expected)
  /-- two slashes with nothing between them -/
  | emptyElement (position : Nat)
  /-- more than two dots -/
  | invalidElement (position : Nat) (element : String)
  /-- the text ends inside quotes -/
  | unexpectedEnd (position : Nat)
  deriving DecidableEq, Repr

def ReadError.position : ReadError → Nat
  | .unexpectedCharacter position _ _ => position
  | .emptyElement position => position
  | .invalidElement position _ => position
  | .unexpectedEnd position => position

/-- The wording of an error. -/
def ReadError.message : ReadError → String
  | .unexpectedCharacter position found expected =>
    s!"unexpected character '{found}' at index {position}: " ++ expected.message
  | .emptyElement position =>
    s!"empty path element at index {position}: empty elements must be enclosed in quotes, "
      ++ "e.g. /\"\"/data"
  | .invalidElement position element =>
    s!"invalid path element '{element}' at index {position}: only '.' or '..' allowed"
  | .unexpectedEnd position =>
    s!"unexpected end of string after {position} characters, expected '\"'"

/-! ## The machine -/

/-- What the reader is in the middle of. -/
inductive Mode where
  /-- at the start of a segment -/
  | start
  /-- in a bare name -/
  | bare
  /-- inside quotes -/
  | quoted
  /-- after a backslash inside quotes -/
  | escape
  /-- behind a segment -/
  | separator
  /-- in a segment of dots -/
  | dots
  deriving DecidableEq, Repr

/-- How many more modes a character may be handed to. -/
def Mode.rank : Mode → Nat
  | .start => 3
  | .bare => 2
  | .dots => 1
  | .separator | .quoted | .escape => 0

/-- The state of the reader: the text still to be read and its position, the segment being read, and
the elements found. -/
structure Scan where
  rest : List Char
  position : Nat
  mode : Mode
  pending : List Char
  found : List Element
  deriving DecidableEq, Repr

namespace Scan

/-- Takes the pending characters as a name. -/
def closeName (s : Scan) : Scan :=
  { s with mode := .separator, pending := [], found := s.found ++ [.name (String.ofList s.pending)] }

/-- Takes the pending dots as an element. -/
def closeDots (s : Scan) : Scan :=
  { s with
    mode := .separator
    pending := []
    found := s.found ++ [if s.pending = ['.'] then .self else .parent] }

/-- Goes past the character in front, whose successors are `rest`. -/
def advance (s : Scan) (rest : List Char) : Scan :=
  { s with rest := rest, position := s.position + 1 }

def unexpected (s : Scan) (c : Char) (expected : Expected) : Except ReadError Scan :=
  .error (.unexpectedCharacter s.position c expected)

/-- A turn of the machine on the character `c`, with `rest` behind it. -/
def turn (s : Scan) (c : Char) (rest : List Char) : Except ReadError Scan :=
  match s.mode with
  | .start =>
    if c = '"' then .ok ({ s with mode := .quoted, pending := [] }.advance rest)
    else .ok { s with mode := .bare, pending := [] }
  | .bare =>
    if c = '/' then
      if s.pending.isEmpty then .error (.emptyElement s.position) else .ok s.closeName
    else if s.pending.isEmpty && c == '.' then .ok { s with mode := .dots }
    else if s.pending.isEmpty && !Text.isLetter c then s.unexpected c .letterFirst
    else if !Text.isLetterOrNumeral c then s.unexpected c .letterOrDigit
    else .ok ({ s with pending := s.pending ++ [c] }.advance rest)
  | .quoted =>
    if c = '\\' then .ok ({ s with mode := .escape }.advance rest)
    else if c = '"' then .ok (s.closeName.advance rest)
    else .ok ({ s with pending := s.pending ++ [c] }.advance rest)
  | .escape => .ok ({ s with mode := .quoted, pending := s.pending ++ [c] }.advance rest)
  | .separator =>
    if c = '/' then .ok ({ s with mode := .start }.advance rest) else s.unexpected c .slash
  | .dots =>
    if c = '.' then
      let pending := s.pending ++ ['.']
      if 2 < pending.length then
        .error (.invalidElement (s.position + 1 - pending.length) (String.ofList pending))
      else .ok ({ s with pending := pending }.advance rest)
    else if c = '/' then .ok s.closeDots
    else s.unexpected c .dotOrSlash

/-- A turn consumes the character, or keeps it and goes to a mode of lower rank. -/
theorem turn_progress {s t : Scan} {c : Char} {rest : List Char} (h : s.turn c rest = .ok t) :
    t.rest = rest ∨ (t.rest = s.rest ∧ t.mode.rank < s.mode.rank) := by
  unfold turn at h
  cases hm : s.mode <;> simp only [hm] at h
  · split at h <;> simp only [Except.ok.injEq] at h <;> subst h <;> simp [advance, Mode.rank]
  · split at h
    · split at h
      · simp at h
      · simp only [Except.ok.injEq] at h; subst h; simp [closeName, Mode.rank]
    · split at h
      · simp only [Except.ok.injEq] at h; subst h; simp [Mode.rank]
      · split at h
        · simp [unexpected] at h
        · split at h
          · simp [unexpected] at h
          · simp only [Except.ok.injEq] at h; subst h; simp [advance]
  · split at h
    · simp only [Except.ok.injEq] at h; subst h; simp [advance]
    · split at h <;> simp only [Except.ok.injEq] at h <;> subst h <;> simp [advance]
  · simp only [Except.ok.injEq] at h; subst h; simp [advance]
  · split at h
    · simp only [Except.ok.injEq] at h; subst h; simp [advance]
    · simp [unexpected] at h
  · split at h
    · split at h
      · simp at h
      · simp only [Except.ok.injEq] at h; subst h; simp [advance]
    · split at h
      · simp only [Except.ok.injEq] at h; subst h; simp [closeDots, Mode.rank]
      · simp [unexpected] at h

/-- Turns until the text is used up or an error ends the reading. -/
def run (s : Scan) : Except ReadError Scan :=
  match _hr : s.rest with
  | [] => .ok s
  | c :: rest =>
    match _h : s.turn c rest with
    | .error e => .error e
    | .ok t => t.run
termination_by (s.rest.length, s.mode.rank)
decreasing_by
  rcases turn_progress _h with h' | ⟨h', hlt⟩
  · exact Prod.Lex.left _ _ (by rw [h', _hr]; exact Nat.lt_succ_self _)
  · rw [h']; exact Prod.Lex.right _ hlt

/-- The elements of a text that ends here. -/
def finish (s : Scan) : Except ReadError (List Element) :=
  match s.mode with
  | .start | .separator => .ok s.found
  | .bare => .ok s.closeName.found
  | .quoted | .escape => .error (.unexpectedEnd s.position)
  | .dots => .ok s.closeDots.found

/-- The reader in front of a text. -/
def begin (position : Nat) (cs : List Char) : Scan :=
  ⟨cs, position, .start, [], []⟩

end Scan

/-- The elements written in a text whose first character has the given position. -/
def readElements (position : Nat) (cs : List Char) : Except ReadError (List Element) :=
  (Scan.begin position cs).run.bind Scan.finish

/-- The path written as `cs`. -/
def readChars (cs : List Char) : Except ReadError Path :=
  match cs with
  | '/' :: rest => (readElements 1 rest).map fun es => ⟨es, true⟩
  | _ => (readElements 0 cs).map fun es => ⟨es, false⟩

/-- The path written as `text`. -/
def read (text : String) : Except ReadError Path :=
  readChars text.toList

end Path

end Polydoc
