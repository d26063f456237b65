/-
  Document/Format.lean --- the formats of documents, and what the name of a file says about its
  content.

  The format goes by the name without regard to letter case, and a mark of compression at its end
  does not count.  Whether a file is compressed goes by the extension of its name, in lower case
  only.
-/
import Polydoc.Text.Lowercase

set_option autoImplicit false

namespace Polydoc

namespace Document

/-- How a document is written. -/
inductive Format where
  | json
  | yaml
  deriving DecidableEq, Repr

/-- Whether a text ends with another. -/
def endsWith (s suffix : List Char) : Bool := suffix.isSuffixOf s

/-- A text without `suffix` at its end, once. -/
def withoutSuffix (s suffix : List Char) : List Char :=
  if endsWith s suffix then s.take (s.length - suffix.length) else s

/-- The format of the file with a given path. -/
def Format.ofPath (path : String) : Format :=
  let base := withoutSuffix (Text.lowercase path).toList ".gz".toList
  if endsWith base ".yaml".toList || endsWith base ".yml".toList then .yaml else .json

/-! ## Names of files -/

/-- The parts between slashes. -/
def components (path : String) : List (List Char) :=
  (path.toList.splitOn '/').filter fun part => !part.isEmpty && part ≠ ['.']

/-- The name of the file with a given path; a path that leads up has none. -/
def fileName? (path : String) : Option (List Char) :=
  (components path).getLast?.filter (· ≠ ['.', '.'])

/-- What follows the last full stop of a name, if anything precedes it. -/
def extension? (name : List Char) : Option (List Char) :=
  let ending := (name.reverse.takeWhile (· ≠ '.')).reverse
  if ending.length + 1 < name.length then some ending else none

/-- Whether the name of a file marks it as compressed. -/
def isCompressed (path : String) : Bool :=
  (fileName? path).bind extension? = some "gz".toList

end Document

end Polydoc
