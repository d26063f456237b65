/-
  Yaml/Token.lean --- the tokens of a YAML text.

  Block structure, which the text shows by indentation, is written out: a block collection has a
  start and an end token, and a key token stands in front of every key.
-/
set_option autoImplicit false

namespace Polydoc

namespace Yaml

/-- A tag as it is written: its handle and what follows it.  The handle is empty for a tag that is
written out in full. -/
structure RawTag where
  handle : String
  suffix : String
  deriving DecidableEq, Repr

inductive Token where
  | versionDirective (major minor : Nat)
  | tagDirective (handle start : String)
  | documentStart
  | documentEnd
  | blockSequenceStart
  | blockMappingStart
  | blockEnd
  | flowSequenceStart
  | flowSequenceEnd
  | flowMappingStart
  | flowMappingEnd
  | blockEntry
  | flowEntry
  | key
  | value
  | alias (name : String)
  | anchor (name : String)
  | tag (tag : RawTag)
  /-- a scalar, and whether it is written without quotes and indicators -/
  | scalar (plain : Bool) (text : String)
  | streamEnd
  deriving DecidableEq, Repr

end Yaml

end Polydoc
