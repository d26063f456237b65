/-
  Resolver/Basic.lean --- choosing the record type of one slot of a document from the document
  itself.

  A resolver knows the place of the slot and a strategy: rules that are tried in order, or a
  discriminator whose value names the type.  It first chooses a type by looking at the source alone
  (`Resolver.choose`), then puts a fresh record of that type into the slot of the target
  (`Resolver.assign`).
-/
import Polydoc.Resolver.Policy
import Polydoc.Resolver.Rule
import Polydoc.TypeMap

set_option autoImplicit false

namespace Polydoc

/-- How a type is chosen. -/
inductive Strategy where
  /-- by the first rule that applies -/
  | rules (rules : List Rule)
  /-- by the value that stands at `discriminator` -/
  | typeMap (discriminator : Path) (types : TypeMap)

/-- Chooses the type of the slot at `target`. -/
structure Resolver where
  target : Path
  policy : Policy
  strategy : Strategy

namespace Resolver

/-! ## Errors -/

/-- What was being done when a path could not be followed. -/
inductive Activity where
  | readDiscriminator
  | evaluateRule (index : Nat)
  | assignType
  deriving DecidableEq, Repr

def Activity.message : Activity → String
  | .readDiscriminator => "error getting discriminator value"
  | .evaluateRule index => s!"error applying rule {index}"
  | .assignType => "error assigning type to target"

/-- Why no type was chosen. -/
inductive Reason where
  | noRuleMatched
  /-- no type belongs to the value shown -/
  | unmapped (shown : String)
  deriving DecidableEq, Repr

def Reason.message : Reason → String
  | .noRuleMatched => "no rule matched"
  | .unmapped shown => s!"no type mapped for discriminator value {shown}"

/-- Why a resolver failed. -/
inductive Error where
  | navigation (activity : Activity) (cause : Navigation.Error)
  | unresolved (target : Path) (reason : Reason)
  deriving DecidableEq, Repr

/-- The wording of an error. -/
def Error.message : Error → String
  | .navigation activity cause => activity.message ++ ": " ++ cause.message
  | .unresolved target reason =>
    "unresolved type error at [" ++ target.render ++ "]: " ++ reason.message

/-! ## Choosing -/

/-- A type, or the reason for there being none. -/
abbrev Choice : Type := Except Reason RecordType

/-- The choice of the first rule that applies; rules are counted from `index`. -/
def firstRule (source : Node) (index : Nat) : List Rule → Except Error Choice
  | [] => .ok (.error .noRuleMatched)
  | rule :: rest =>
    match rule.applies source with
    | .error cause => .error (.navigation (.evaluateRule index) cause)
    | .ok true => .ok (.ok rule.type)
    | .ok false => firstRule source (index + 1) rest

/-- A discriminator value as it is named in a message: a scalar by its text, anything else by its
kind. -/
def shownValue (found : Node) : String :=
  match found.scalar? with
  | some s => s.shown
  | none => found.kindName

/-- The type that belongs to the node found at the discriminator. -/
def mapped (types : TypeMap) (found : Node) : Choice :=
  match found.scalar?.bind types.get? with
  | some type => .ok type
  | none => .error (.unmapped (shownValue found))

/-- What a strategy chooses for a source. -/
def Strategy.choose (source : Node) : Strategy → Except Error Choice
  | .rules rules => firstRule source 0 rules
  | .typeMap discriminator types =>
    match source.at? discriminator with
    | .error cause => .error (.navigation .readDiscriminator cause)
    | .ok found => .ok (mapped types found)

/-- What the resolver chooses for a source. -/
def choose (r : Resolver) (source : Node) : Except Error Choice :=
  Strategy.choose source r.strategy

/-! ## Assigning -/

/-- Puts a fresh record of the chosen type into the slot, and tells whether a type was chosen.  On an
error the target is as before. -/
def assign (r : Resolver) (source target : Node) : Node × Except Error Bool :=
  match r.choose source with
  | .error e => (target, .error e)
  | .ok (.error reason) =>
    match r.policy with
    | .strict => (target, .error (.unresolved r.target reason))
    | .soft => (target, .ok false)
  | .ok (.ok type) =>
    match target.assignTypeAt? r.target type with
    | .error cause => (target, .error (.navigation .assignType cause))
    | .ok assigned => (assigned, .ok true)

end Resolver

end Polydoc
