/-
  Schema/Reader.lean --- reading schemas from TOML text.

  A key that means nothing is an error, wherever it stands.
-/
import Polydoc.Schema.Basic
import Polydoc.Toml.Access
import Polydoc.Toml.Reader

set_option autoImplicit false

namespace Polydoc

/-- Reads a policy: its name, or a table with its name as the only key and nothing in it. -/
def Policy.ofToml? : Toml.Value → Option Policy
  | .string name => Policy.ofName? name
  | .table [(name, .table [])] => Policy.ofName? name
  | .table [(name, .array [])] => Policy.ofName? name
  | _ => none

namespace Schema

/-- Reads a value that may be missing. -/
def optional {α : Type} (read : Toml.Value → Option α) : Option Toml.Value → Option (Option α)
  | none => some none
  | some v => (read v).map some

/-- Reads a table of texts. -/
def texts? (v : Toml.Value) : Option (List (String × String)) :=
  v.table?.bind fun entries => entries.mapM fun (key, v) => v.string?.map (key, ·)

/-- Reads the declared types. -/
def declared? (v : Toml.Value) : Option Declared :=
  v.table?.bind fun entries => entries.mapM fun (name, v) => (texts? v).map (name, ·)

/-- Reads an entry of a type map that is an array. -/
def mapEntry? (v : Toml.Value) : Option (Toml.Value × String) :=
  let exact : Bool :=
    match v with
    | .array items => items.length = 2
    | _ => true
  match v.fields? ["value", "type"] with
  | some [some value, some type] => if exact then type.string?.map (value, ·) else none
  | _ => none

/-- Reads a type map: a table, whose keys are the texts that stand for types, or an array. -/
def typeMap? (v : Toml.Value) : Option (List (Toml.Value × String)) :=
  match v with
  | .array items => items.mapM mapEntry?
  | v => (texts? v).map fun pairs => pairs.map fun (key, type) => (.string key, type)

/-- Reads a rule. -/
def rule? (v : Toml.Value) : Option RuleForm :=
  match v.fields? ["path", "equals", "type"] with
  | some [some path, some equals, some type] => do
    return ⟨← path.string?, equals, ← type.string?⟩
  | _ => none

/-- Reads a list of rules. -/
def rules? (v : Toml.Value) : Option (List RuleForm) :=
  v.array?.bind fun items => items.mapM rule?

/-- Reads a resolver. -/
def resolver? (v : Toml.Value) : Option ResolverForm :=
  match v.fields? ["target", "discriminator", "type_map", "rules"] with
  | some [some target, discriminator, typeMap, rules] => do
    let target ← target.string?
    let discriminator ← optional Toml.Value.string? discriminator
    let typeMap ← optional typeMap? typeMap
    let rules ← optional rules? rules
    return ⟨target, discriminator, typeMap.getD [], rules.getD []⟩
  | _ => none

/-- Reads a schema. -/
def ofTable? (table : Toml.Table) : Option Schema :=
  match Toml.Value.fields? ["root", "policy", "types", "resolver"] (.table table) with
  | some [some root, policy, some types, some resolver] => do
    let root ← root.string?
    let policy ← optional Policy.ofToml? policy
    let types ← declared? types
    let resolver ← resolver? resolver
    return ⟨root, policy, types, resolver⟩
  | _ => none

/-- The schema that a text holds. -/
def read? (text : String) : Option Schema := (Toml.read? text).bind ofTable?

end Schema

end Polydoc
