/-
  Resolver/Build.lean --- resolvers and rules from paths that may be wrong.

  Paths are given as text or as paths of any elements.  They are anchored, the target and the place
  of a rule at the root, the discriminator at the target, and normalized, so that whatever is built
  holds absolute paths of names alone.  All faults are reported together.
-/
import Polydoc.Path.Reader
import Polydoc.Resolver.Basic

set_option autoImplicit false

namespace Polydoc

namespace Resolver

/-- What a path is for. -/
inductive Role where
  | target
  | discriminator
  | ruleValue
  deriving DecidableEq, Repr

def Role.name : Role → String
  | .target => "target path"
  | .discriminator => "discriminator path"
  | .ruleValue => "rule value path"

/-- What is wrong with a path. -/
inductive Fault where
  /-- the text is not a path -/
  | invalidPath (role : Role) (input : String) (cause : Path.ReadError)
  /-- the path leads out of the root or has no normal form -/
  | invalidAnchor (role : Role) (input : String) (cause : Path.Error)
  deriving DecidableEq, Repr

def Fault.message : Fault → String
  | .invalidPath role input cause =>
    "invalid " ++ role.name ++ " \"" ++ input ++ "\": " ++ cause.message
  | .invalidAnchor role input cause =>
    "cannot anchor " ++ role.name ++ " \"" ++ input ++ "\": " ++ cause.message

/-- Everything that kept a resolver or a rule from being built. -/
structure BuildError where
  faults : List Fault
  deriving DecidableEq, Repr

def BuildError.message (e : BuildError) : String :=
  let count := e.faults.length
  e.faults.foldl (fun text fault => text ++ "\n  - " ++ fault.message)
    s!"failed to build resolver ({count} error(s))"

/-! ## Paths -/

/-- A path as it is given. -/
inductive Given where
  | text (written : String)
  | path (known : Path)
  deriving DecidableEq, Repr

/-- The text of a given path. -/
def Given.input : Given → String
  | .text written => written
  | .path known => known.render

/-- The given path as a path. -/
def Given.read (role : Role) : Given → Except Fault Path
  | .text written => (Path.read written).mapError (Fault.invalidPath role written)
  | .path known => .ok known

/-- A path anchored at `reference` and normalized. -/
def anchored (role : Role) (input : String) (reference p : Path) : Except Fault Path :=
  ((p.anchor reference).bind Path.normalize).mapError (Fault.invalidAnchor role input)

/-- A given path, anchored at the root. -/
def Given.fromTop (role : Role) (given : Given) : Except Fault Path :=
  (given.read role).bind (anchored role given.input Path.top)

/-- A discriminator path, anchored at the target.  If there is no target, only an absolute one can
be checked. -/
def discriminatorAt (target : Option Path) (given : Given) : Except (Option Fault) Path :=
  match given.read .discriminator with
  | .error fault => .error (some fault)
  | .ok p =>
    match target, p.absolute with
    | some reference, _ => (anchored .discriminator given.input reference p).mapError some
    | none, true => (anchored .discriminator given.input Path.top p).mapError some
    | none, false => .error none

/-! ## Rules and resolvers -/

/-- The rule that chooses `type` where `condition` holds of the node at `given`. -/
def buildRule (given : Given) (condition : Condition) (type : RecordType) :
    Except BuildError Rule :=
  match given.fromTop .ruleValue with
  | .ok place => .ok ⟨place, condition, type⟩
  | .error fault => .error ⟨[fault]⟩

/-- A strategy as it is given. -/
inductive StrategyPlan where
  | rules (rules : List Rule)
  | typeMap (discriminator : Given) (types : TypeMap)

/-- A resolver as it is given. -/
structure Plan where
  target : Given
  policy : Policy
  strategy : StrategyPlan

/-- The resolver of a plan. -/
def build (plan : Plan) : Except BuildError Resolver :=
  match plan.target.fromTop .target, plan.strategy with
  | .ok target, .rules rules => .ok ⟨target, plan.policy, .rules rules⟩
  | .error fault, .rules _ => .error ⟨[fault]⟩
  | .ok target, .typeMap given types =>
    match discriminatorAt (some target) given with
    | .ok discriminator => .ok ⟨target, plan.policy, .typeMap discriminator types⟩
    | .error fault => .error ⟨fault.toList⟩
  | .error fault, .typeMap given _ =>
    match discriminatorAt none given with
    | .ok _ => .error ⟨[fault]⟩
    | .error more => .error ⟨fault :: more.toList⟩

end Resolver

end Polydoc
