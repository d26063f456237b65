/-
  Toml/Draft.lean --- tables that are still being written, statement by statement.

  A key with dots and a header both lead through tables, and make those that are not there yet.
  How a table came about says what may still be added to it: a header opens a table once, and a
  table that a key with dots made is closed to headers of its own.
-/
import Polydoc.Entries
import Polydoc.Toml.Value

set_option autoImplicit false

namespace Polydoc

namespace Toml

/-- What a table was made by. -/
inductive Origin where
  /-- its own header -/
  | header
  /-- the header of a table inside it -/
  | passage
  /-- a key with dots -/
  | dotted
  deriving DecidableEq, Repr

/-- A value that may still grow. -/
inductive Draft where
  /-- a value to which nothing can be added -/
  | fixed (value : Value)
  | table (origin : Origin) (entries : List (String × Draft))
  /-- an array of tables, each with a header -/
  | tables (elements : List (List (String × Draft)))

namespace Draft

abbrev Entries := List (String × Draft)

/-- Goes from a table down along keys, makes the tables that are missing, and changes the last one.
An array of tables stands for its last element.  A key with dots cannot go through a table with a
header of its own. -/
def descend? (made : Origin) (change : Origin → Entries → Option Entries) :
    List String → Origin → Entries → Option Entries
  | [], origin, entries => change origin entries
  | key :: keys, _, entries =>
    match Polydoc.Entries.get? key entries with
    | none =>
      (descend? made change keys made []).map fun inner => entries ++ [(key, .table made inner)]
    | some (.table origin inner) =>
      if made = .dotted ∧ origin = .header then none
      else
        (descend? made change keys origin inner).map fun inner =>
          Polydoc.Entries.put key (.table origin inner) entries
    | some (.tables elements) =>
      match elements.getLast? with
      | none => none
      | some last =>
        (descend? made change keys .header last).map fun last =>
          Polydoc.Entries.put key (.tables (elements.dropLast ++ [last])) entries
    | some (.fixed _) => none

/-- Adds an entry, unless its key is there. -/
def add? (key : String) (value : Value) (entries : Entries) : Option Entries :=
  if (Polydoc.Entries.get? key entries).isSome then none
  else some (entries ++ [(key, .fixed value)])

/-- Adds the value of a key with dots.  The table that it ends up in must be one that keys with dots
made, or the table that the key starts from. -/
def assign? (keys : List String) (value : Value) (entries : Entries) : Option Entries :=
  match keys.getLast? with
  | none => none
  | some key =>
    let path := keys.dropLast
    descend? .dotted
      (fun origin inner =>
        if path.isEmpty ∨ origin = .dotted then add? key value inner else none)
      path .header entries

/-- Adds the values of keys one after another. -/
def assignAll? (pairs : List (List String × Value)) (entries : Entries) : Option Entries :=
  pairs.foldlM (fun entries (keys, value) => assign? keys value entries) entries

/-- Opens the table that a header names, with the given pairs.  A table that other headers have
passed through is opened with what is in it; any other that is there already is an error. -/
def openTable? (keys : List String) (pairs : List (List String × Value)) (entries : Entries) :
    Option Entries :=
  match keys.getLast? with
  | none => none
  | some key =>
    descend? .passage
      (fun _ outer =>
        match Polydoc.Entries.get? key outer with
        | none => (assignAll? pairs []).map fun inner => outer ++ [(key, .table .header inner)]
        | some (.table .passage inner) =>
          (assignAll? pairs inner).map fun inner =>
            outer.filter (·.1 ≠ key) ++ [(key, .table .header inner)]
        | some _ => none)
      keys.dropLast .header entries

/-- Adds a table with the given pairs to the array of tables that a header names. -/
def openElement? (keys : List String) (pairs : List (List String × Value)) (entries : Entries) :
    Option Entries :=
  match keys.getLast? with
  | none => none
  | some key =>
    descend? .passage
      (fun _ outer =>
        match Polydoc.Entries.get? key outer with
        | none => (assignAll? pairs []).map fun inner => outer ++ [(key, .tables [inner])]
        | some (.tables elements) =>
          (assignAll? pairs []).map fun inner =>
            Polydoc.Entries.put key (.tables (elements ++ [inner])) outer
        | some _ => none)
      keys.dropLast .header entries

/-! ## Finished tables -/

mutual

/-- The value that a draft has become. -/
def finished : Draft → Value
  | .fixed v => v
  | .table _ entries => .table (finishedEntries entries)
  | .tables elements => .array (finishedElements elements)

def finishedEntries : List (String × Draft) → Table
  | [] => []
  | (key, d) :: rest => (key, finished d) :: finishedEntries rest

def finishedElements : List (List (String × Draft)) → List Value
  | [] => []
  | entries :: rest => .table (finishedEntries entries) :: finishedElements rest

end

/-- The table with the given pairs and no others. -/
def ofPairs? (pairs : List (List String × Value)) : Option Table :=
  (assignAll? pairs []).map finishedEntries

end Draft

end Toml

end Polydoc
