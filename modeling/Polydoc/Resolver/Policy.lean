/-
  Resolver/Policy.lean --- what happens when no type can be chosen.
-/
set_option autoImplicit false

namespace Polydoc

/-- Whether an unresolved type is an error or leaves the document generic. -/
inductive Policy where
  /-- an unresolved type is an error -/
  | strict
  /-- an unresolved type leaves the target as it is -/
  | soft
  deriving DecidableEq, Repr, Inhabited

namespace Policy

def name : Policy → String
  | .strict => "strict"
  | .soft => "soft"

/-- A text that names no policy, in lower case. -/
structure Unknown where
  text : String
  deriving DecidableEq, Repr

def Unknown.message (e : Unknown) : String :=
  let text := e.text
  s!"unknown policy '{text}', expected 'strict' or 'soft'"

/-- The policy with exactly that name. -/
def ofName? (text : String) : Option Policy :=
  if text = "strict" then some .strict else if text = "soft" then some .soft else none

/-- The policy with that name, whatever the case of its ASCII letters. -/
def read (text : String) : Except Unknown Policy :=
  let lowered := String.ofList (text.toList.map Char.toLower)
  match ofName? lowered with
  | some policy => .ok policy
  | none => .error ⟨lowered⟩

theorem ofName?_name (p : Policy) : ofName? p.name = some p := by
  cases p <;> rfl

end Policy

end Polydoc
