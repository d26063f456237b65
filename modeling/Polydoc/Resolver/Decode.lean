/-
  Resolver/Decode.lean --- choosing the type of a slot and then filling the whole target.
-/
import Polydoc.Decode
import Polydoc.Resolver.Basic

set_option autoImplicit false

namespace Polydoc

namespace Resolver

/-- Why a document could not be decoded. -/
inductive Failure where
  | resolve (cause : Error)
  | decode (cause : Decode.Error)
  deriving DecidableEq, Repr

/-- The wording of a failure. -/
def Failure.message : Failure → String
  | .resolve cause => cause.message
  | .decode cause => "error decoding document: " ++ cause.message

/-- Whether the failure is that no type could be chosen. -/
def Failure.isUnresolved : Failure → Bool
  | .resolve (.unresolved _ _) => true
  | _ => false

/-- Assigns the chosen type and decodes the source into the target.  Tells whether a type was
chosen, and leaves the target as far as it was written. -/
def decode (r : Resolver) (source target : Node) : Node × Except Failure Bool :=
  match r.assign source target with
  | (target, .error e) => (target, .error (.resolve e))
  | (target, .ok applied) =>
    match decodeInto source target with
    | (target, .ok ()) => (target, .ok applied)
    | (target, .error e) => (target, .error (.decode e))

end Resolver

end Polydoc
