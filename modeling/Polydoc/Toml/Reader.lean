/-
  Toml/Reader.lean --- reading TOML text (version 1.0) as a table.
-/
import Polydoc.Toml.Statement

set_option autoImplicit false

namespace Polydoc

namespace Toml

/-- A header, or none, and the pairs behind it. -/
structure Section where
  header : Option (List String × Bool)
  pairs : List (List String × Value)

/-- Puts statements in front of sections, the first of which has no header. -/
def addStatement (s : Statement) (sections : Section × List Section) : Section × List Section :=
  let (first, others) := sections
  match s with
  | .pair keys value => ({ first with pairs := (keys, value) :: first.pairs }, others)
  | .header keys ofArray =>
    (⟨none, []⟩, { first with header := some (keys, ofArray) } :: others)

/-- The sections of a text: the one without a header, and those with one. -/
def sections (statements : List Statement) : Section × List Section :=
  statements.foldr addStatement (⟨none, []⟩, [])

/-- Adds a section to the outermost table. -/
def Section.addTo? (s : Section) (entries : Draft.Entries) : Option Draft.Entries :=
  match s.header with
  | none => Draft.assignAll? s.pairs entries
  | some (keys, false) => Draft.openTable? keys s.pairs entries
  | some (keys, true) => Draft.openElement? keys s.pairs entries

/-- The table that statements make. -/
def ofStatements? (statements : List Statement) : Option Table :=
  let (first, others) := sections statements
  ((first :: others).foldlM (fun entries s => Section.addTo? s entries) []).map Draft.finishedEntries

/-- A text without the byte order mark in front. -/
def withoutMark : List Char → List Char
  | '\ufeff' :: rest => rest
  | cs => cs

/-- The table that a TOML text holds. -/
def read? (text : String) : Option Table :=
  let cs := withoutMark text.toList
  (statements? (cs.length + 1) cs).bind ofStatements?

end Toml

end Polydoc
