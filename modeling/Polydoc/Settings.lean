/-
  Settings.lean --- what a user prefers, in a TOML file.

  Everything has a default, so that a file that is missing or wrong in any way never stops anything.
-/
import Polydoc.Document.Reader
import Polydoc.Schema.Reader
import Polydoc.Toml.Writer

set_option autoImplicit false

namespace Polydoc

/-- A user's preferences. -/
structure Settings where
  /-- the policy of schemas that have none -/
  policy : Policy
  /-- what is logged -/
  logLevel : String
  /-- whether output is spread over several lines -/
  pretty : Bool
  deriving DecidableEq, Repr

namespace Settings

def default : Settings := ⟨.strict, "warn", true⟩

instance : Inhabited Settings := ⟨default⟩

/-- Reads the value of a key; a missing one has the value `otherwise`. -/
def field? {α : Type} (table : Toml.Table) (key : String) (read : Toml.Value → Option α)
    (otherwise : α) : Option α :=
  match Entries.get? key table with
  | none => some otherwise
  | some v => read v

/-- Reads preferences; keys that mean nothing do not count. -/
def ofTable? (table : Toml.Table) : Option Settings := do
  let policy ← field? table "policy" Policy.ofToml? default.policy
  let logLevel ← field? table "log_level" Toml.Value.string? default.logLevel
  let pretty ← field? table "pretty" Toml.Value.bool? default.pretty
  return ⟨policy, logLevel, pretty⟩

/-- The preferences in the octets of a file, or the defaults if they cannot be read. -/
def read (content : Option (List UInt8)) : Settings :=
  (((content.bind Document.textOf?).bind Toml.read?).bind ofTable?).getD default

/-- The text of a file with the preferences. -/
def write (s : Settings) : String :=
  "policy = " ++ Toml.quoted s.policy.name ++ "\n"
    ++ "log_level = " ++ Toml.quoted s.logLevel ++ "\n"
    ++ "pretty = " ++ (if s.pretty then "true" else "false") ++ "\n"

end Settings

end Polydoc
