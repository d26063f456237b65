/-
  Kind/Form.lean --- kinds as they are written, with record types by name.

  A question mark behind a kind makes it optional, brackets around it make a sequence, and a word
  that is no kind is the name of a record type.  Blanks around any part do not count.
-/
import Polydoc.Kind.Basic
import Polydoc.Text.Blank

set_option autoImplicit false

namespace Polydoc

namespace Kind

/-- A kind in which record types have names only. -/
inductive Form where
  | bool
  | integer
  | float
  | string
  | any
  | mapping
  | sequence (item : Form)
  | optional (inner : Form)
  | named (type : String)
  deriving DecidableEq, Repr

namespace Form

/-- The form that a single word stands for; there must be one. -/
def ofWord? (word : List Char) : Option Form :=
  if word.isEmpty then none
  else if word = "bool".toList then some .bool
  else if word = "integer".toList then some .integer
  else if word = "float".toList then some .float
  else if word = "string".toList then some .string
  else if word = "any".toList then some .any
  else if word = "map".toList then some .mapping
  else some (.named (String.ofList word))

/-- What stands in front of a last character. -/
def before? (last : Char) (cs : List Char) : Option (List Char) :=
  if cs.getLast? = some last then some cs.dropLast else none

/-- What stands between brackets around the whole text. -/
def bracketed? : List Char → Option (List Char)
  | '[' :: rest => before? ']' rest
  | _ => none

theorem length_of_before? {last : Char} {cs inner : List Char} (h : before? last cs = some inner) :
    inner.length < cs.length := by
  unfold before? at h
  split at h
  · rename_i hl
    simp only [Option.some.injEq] at h
    subst h
    cases cs with
    | nil => simp at hl
    | cons c rest => simp
  · simp at h

theorem length_of_bracketed? {cs inner : List Char} (h : bracketed? cs = some inner) :
    inner.length < cs.length := by
  unfold bracketed? at h
  split at h
  · have := length_of_before? h
    simp only [List.length_cons]
    omega
  · simp at h

/-- Reads a written kind; the only fault that one can have is to be empty somewhere. -/
def ofChars? (cs : List Char) : Option Form :=
  match _h : before? '?' (Text.trim cs) with
  | some inner => (ofChars? inner).map .optional
  | none =>
    match _h' : bracketed? (Text.trim cs) with
    | some inner => (ofChars? inner).map .sequence
    | none => ofWord? (Text.trim cs)
  termination_by cs.length
  decreasing_by
    · have := length_of_before? _h
      have := Text.length_trim_le cs
      omega
    · have := length_of_bracketed? _h'
      have := Text.length_trim_le cs
      omega

/-- Reads a written kind. -/
def read? (text : String) : Option Form := ofChars? text.toList

/-- The names of record types in a form: at most one. -/
def names : Form → List String
  | .sequence item => item.names
  | .optional inner => inner.names
  | .named type => [type]
  | _ => []

end Form

/-- The form of a kind. -/
def form : Kind → Form
  | .bool => .bool
  | .integer => .integer
  | .float => .float
  | .string => .string
  | .any => .any
  | .mapping => .mapping
  | .sequence item => .sequence item.form
  | .optional inner => .optional inner.form
  | .record name _ => .named name

end Kind

end Polydoc
