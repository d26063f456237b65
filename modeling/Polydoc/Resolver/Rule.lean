/-
  Resolver/Rule.lean --- rules: a place of the source, a condition on what stands there, and the
  type to choose when it holds.
-/
import Polydoc.Navigation
import Polydoc.Node.Equality

set_option autoImplicit false

namespace Polydoc

/-- A condition on a node. -/
abbrev Condition : Type := Node → Bool

/-- The condition to equal `expected`; indirect layers around the tested node do not matter. -/
def Condition.equals (expected : Node) : Condition := fun found => found.core == expected

/-- Chooses a type if a condition holds of the node at a place. -/
structure Rule where
  place : Path
  condition : Condition
  type : RecordType

namespace Rule

/-- Whether the rule applies to a document. -/
def applies (r : Rule) (source : Node) : Except Navigation.Error Bool :=
  (source.at? r.place).map r.condition

end Rule

end Polydoc
