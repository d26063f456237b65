/-
  Schema/Basic.lean --- schemas: record types by name, the type of a document, and one resolver.
-/
import Polydoc.Resolver.Policy
import Polydoc.Toml.Value

set_option autoImplicit false

namespace Polydoc

/-- The declared types by name, each with the written kinds of its fields. -/
abbrev Declared := List (String × List (String × String))

namespace Schema

/-- A rule as a schema gives it. -/
structure RuleForm where
  path : String
  equals : Toml.Value
  type : String
  deriving Repr

/-- A resolver as a schema gives it: with a discriminator and a type map, or with rules. -/
structure ResolverForm where
  target : String
  discriminator : Option String
  typeMap : List (Toml.Value × String)
  rules : List RuleForm
  deriving Repr

end Schema

structure Schema where
  /-- the type of the whole document -/
  root : String
  /-- goes before any other policy -/
  policy : Option Policy
  types : Declared
  resolver : Schema.ResolverForm
  deriving Repr

end Polydoc
