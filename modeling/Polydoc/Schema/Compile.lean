/-
  Schema/Compile.lean --- what a schema describes: record types and a resolver that is ready to run.
-/
import Polydoc.Resolver.Build
import Polydoc.Schema.Types
import Polydoc.Toml.Access
import Polydoc.Toml.Writer

set_option autoImplicit false

namespace Polydoc

namespace Schema

/-- Why a schema describes nothing. -/
inductive Error where
  | types (cause : TypeError)
  | unknownRoot (type : String)
  /-- a type that the resolver refers to is not declared -/
  | unknownType (type : String)
  | twoStrategies
  | noStrategy
  /-- a value of the type map is no scalar -/
  | compoundValue (type : String) (value : Toml.Value)
  | resolver (cause : Resolver.BuildError)

/-- The wording of an error, outermost context first. -/
def Error.message : Error → String
  | .types cause => cause.message
  | .unknownRoot type => "invalid root type: " ++ (TypeError.unknown type).message
  | .unknownType type => (TypeError.unknown type).message
  | .twoStrategies => "resolver must use either a discriminator or rules, not both"
  | .noStrategy => "resolver needs a discriminator or at least one rule"
  | .compoundValue type value =>
    "type map value for '" ++ type ++ "' must be a scalar, got " ++ value.write
  | .resolver cause => cause.message

/-- What a schema describes. -/
structure Compiled where
  root : RecordType
  /-- every declared type, behind the types that it refers to -/
  types : Built
  resolver : Resolver

/-- A fresh target for a document. -/
def Compiled.target (c : Compiled) : Node := c.root.zero

/-! ## The resolver -/

/-- The made type of a name. -/
def typeOf (built : Built) (type : String) : Except Error RecordType :=
  (Entries.get? type built).elim (.error (.unknownType type)) .ok

/-- The scalar that a value of a type map stands for. -/
def scalarOf (type : String) (value : Toml.Value) : Except Error Scalar :=
  match value.toNode with
  | .scalar s => .ok s
  | _ => .error (.compoundValue type value)

/-- The pairs of a type map.  All values are looked at before any type. -/
def pairsOf (built : Built) (typeMap : List (Toml.Value × String)) :
    Except Error (List (Scalar × RecordType)) := do
  let scalars ← typeMap.mapM fun (value, type) => scalarOf type value
  let types ← typeMap.mapM fun (_, type) => typeOf built type
  return scalars.zip types

/-- The rule of a form: its type is looked at before its path. -/
def ruleOf (built : Built) (form : RuleForm) : Except Error Rule := do
  let type ← typeOf built form.type
  (Resolver.buildRule (.text form.path) (.equals form.equals.toNode) type).mapError .resolver

/-- The strategy of a resolver. -/
def strategyOf (built : Built) (form : ResolverForm) : Except Error Resolver.StrategyPlan :=
  match form.discriminator, form.rules with
  | some _, _ :: _ => .error .twoStrategies
  | none, [] => .error .noStrategy
  | some discriminator, [] => do
    let pairs ← pairsOf built form.typeMap
    return .typeMap (.text discriminator) (TypeMap.ofList pairs)
  | none, rules => do
    let rules ← rules.mapM (ruleOf built)
    return .rules rules

/-- The resolver of a form. -/
def resolverOf (built : Built) (policy : Policy) (form : ResolverForm) : Except Error Resolver := do
  let strategy ← strategyOf built form
  (Resolver.build ⟨.text form.target, policy, strategy⟩).mapError .resolver

/-! ## Schemas -/

/-- What a schema describes, with the policy `default` if it has none of its own. -/
def compile (s : Schema) (default : Policy) : Except Error Compiled := do
  let types ← (typesOf s.types).mapError .types
  let root ← (Entries.get? s.root types).elim (.error (.unknownRoot s.root)) .ok
  let resolver ← resolverOf types (s.policy.getD default) s.resolver
  return ⟨root, types, resolver⟩

end Schema

end Polydoc
