/-
  Proofs/Navigation/Congruence.lean --- relations between documents that navigation respects.

  A path is followed one name at a time.  So it is enough to know of a relation what one name does:
  it enters related members of related nodes, and related members can be replaced.  Then a path
  leads in related documents to related nodes, or is stopped in both by one error, and related
  documents with related nodes written through the path are related.
-/
import Polydoc.Proofs.Navigation.Place

set_option autoImplicit false

namespace Polydoc.Node

open Navigation

/-! ## Related results -/

/-- Results that are related: two values that are, or one and the same error. -/
inductive SameResult {α ε : Type} (rel : α → α → Prop) : Except ε α → Except ε α → Prop where
  | ok {a b : α} (h : rel a b) : SameResult rel (.ok a) (.ok b)
  | error (e : ε) : SameResult rel (.error e) (.error e)

section SameResult

variable {α ε : Type} {rel : α → α → Prop} {x y : Except ε α}

theorem SameResult.map (h : SameResult rel x y) {f g : α → α}
    (hfg : ∀ a b, rel a b → rel (f a) (g b)) : SameResult rel (x.map f) (y.map g) := by
  cases h with
  | ok h => exact .ok (hfg _ _ h)
  | error e => exact .error e

theorem SameResult.mapError {δ : Type} (h : SameResult rel x y) (f : ε → δ) :
    SameResult rel (x.mapError f) (y.mapError f) := by
  cases h with
  | ok h => exact .ok h
  | error e => exact .error (f e)

/-- Where a function does not tell related values apart, it does not tell related results apart. -/
theorem SameResult.map_eq {β : Type} (h : SameResult rel x y) {f : α → β}
    (hf : ∀ a b, rel a b → f a = f b) : x.map f = y.map f := by
  cases h with
  | ok h => exact congrArg Except.ok (hf _ _ h)
  | error e => rfl

end SameResult

/-- Of two written documents with what was answered: the documents are the same but for what `same`
overlooks, and the answers are equal. -/
def SameUpTo {α ρ : Type} (same : α → α → Prop) (one other : α × ρ) : Prop :=
  same one.1 other.1 ∧ one.2 = other.2

theorem SameUpTo.exists_eq {α ρ : Type} {same : α → α → Prop} {one other : α × ρ}
    (h : SameUpTo same one other) : ∃ a b r, one = (a, r) ∧ other = (b, r) ∧ same a b :=
  ⟨one.1, other.1, one.2, rfl, congrArg (Prod.mk other.1) h.2.symm, h.1⟩

/-! ## Related documents -/

/-- A relation that one name respects, in reading a member and in replacing it. -/
structure Congruence (rel : Node → Node → Prop) : Prop where
  enter : ∀ {m n : Node}, rel m n → ∀ name, SameResult rel (m.enter name) (n.enter name)
  setMember : ∀ {m n c d : Node}, rel m n → rel c d →
    ∀ name, rel (m.setMember name c) (n.setMember name d)

namespace Congruence

variable {rel : Node → Node → Prop} (hrel : Congruence rel)

include hrel

theorem walk {es : List Element} :
    ∀ {m n : Node}, rel m n → ∀ index, SameResult rel (m.walk index es) (n.walk index es) := by
  induction es with
  | nil => exact fun h _ => .ok h
  | cons e rest ih =>
    intro m n h index
    cases e with
    | self => exact ih h (index + 1)
    | name text =>
      have hstep := hrel.enter h text
      generalize hm : m.enter text = x at hstep
      generalize hn : n.enter text = y at hstep
      cases hstep with
      | ok hchild =>
        rw [walk_name hm, walk_name hn]
        exact ih hchild (index + 1)
      | error o =>
        rw [walk_name_error hm, walk_name_error hn]
        exact .error _
    | parent => exact .error _
    | root => exact .error _

theorem overwrite {c d : Node} (hc : rel c d) {es : List Element} :
    ∀ {m n : Node}, rel m n →
      ∀ index, SameResult rel (m.overwrite c index es) (n.overwrite d index es) := by
  induction es with
  | nil => exact fun _ _ => .ok hc
  | cons e rest ih =>
    intro m n h index
    cases e with
    | self => exact ih h (index + 1)
    | name text =>
      have hstep := hrel.enter h text
      generalize hm : m.enter text = x at hstep
      generalize hn : n.enter text = y at hstep
      cases hstep with
      | ok hchild =>
        rw [Node.overwrite, Node.overwrite, hm, hn]
        exact (ih hchild (index + 1)).map fun a b hab => hrel.setMember h hab text
      | error o =>
        rw [overwrite_name_error hm, overwrite_name_error hn]
        exact .error _
    | parent => exact .error _
    | root => exact .error _

/-- A path leads in both to related nodes, or fails in both with the same error. -/
theorem at? {m n : Node} (h : rel m n) (p : Path) : SameResult rel (m.at? p) (n.at? p) :=
  (hrel.walk h 0).mapError (Stop.onPath p)

theorem setAt? {m n c d : Node} (h : rel m n) (hc : rel c d) (p : Path) :
    SameResult rel (m.setAt? p c) (n.setAt? p d) :=
  (hrel.overwrite hc h 0).mapError (Stop.onPath p)

end Congruence

end Polydoc.Node
