/-
  Proofs/Navigation/Backtracking.lean --- a normalized path leads where a walk that can turn back
  ends.

  A walk that turns back at every `..` has to remember the nodes around the one it has come to.
  Normalizing remembers the names instead, without a look at the document.  While the walk goes on,
  the names that are kept lead from the root to each of the nodes that are remembered, so where the
  walk ends they lead to its end; and the two of them leave the root at the same element.
-/
import Polydoc.Proofs.Navigation.Overwriting
import Polydoc.Proofs.Path.Normal

set_option autoImplicit false

namespace Polydoc.Node

/-! ## Walks that turn back -/

/-- How a walk that can turn back ends. -/
inductive Ending where
  | at (n : Node)
  /-- the name at `index` leads nowhere -/
  | stuck (index : Nat)
  /-- the `..` at `index` is taken at the root -/
  | aboveRoot (index : Nat)
  /-- a root marker stands at `index` -/
  | marker (index : Nat)

/-- Walks from a node on, inside the nodes `around` it, innermost first: a name enters a member of
the node, and `..` turns back to the node around it.  The first element stands at `index`. -/
def backtrack (n : Node) (around : List Node) (index : Nat) : List Element → Ending
  | [] => .at n
  | .self :: rest => n.backtrack around (index + 1) rest
  | .name text :: rest =>
    match n.member? text with
    | some child => child.backtrack (n :: around) (index + 1) rest
    | none => .stuck index
  | .parent :: rest =>
    match around with
    | [] => .aboveRoot index
    | outer :: around => outer.backtrack around (index + 1) rest
  | .root :: _ => .marker index

/-! ## Walks that do not -/

theorem enter_eq_ok_iff {n child : Node} {name : String} :
    n.enter name = .ok child ↔ n.member? name = some child := by
  unfold enter member?
  cases n.core with
  | mapping entries =>
    dsimp only
    cases Entries.get? name entries <;> simp
  | record type fields =>
    dsimp only
    cases Entries.find? name fields <;> simp
  | _ => simp

/-- A walk that comes to a node goes on from there. -/
theorem walk_append {es : List Element} (rest : List Element) :
    ∀ {n found : Node} {index : Nat}, n.walk index es = .ok found →
      n.walk index (es ++ rest) = found.walk (index + es.length) rest := by
  induction es with
  | nil =>
    intro n found index h
    cases h
    rfl
  | cons e es ih =>
    intro n found index h
    have hlength : index + (e :: es).length = index + 1 + es.length := by
      rw [List.length_cons]
      omega
    rw [List.cons_append, hlength]
    cases e with
    | self => exact ih h
    | name text =>
      rcases enter_cases n text with ⟨_, child, _, _, he⟩ | ⟨_, he⟩
      · rw [walk_name he] at h ⊢
        exact ih h
      · rw [walk_name_error he] at h
        cases h
    | parent => cases h
    | root => cases h

/-! ## Names and nodes side by side -/

/-- The names that are kept, last one first, enter the nodes around `n` one after another from the
root, and `n` with the last of them. -/
inductive Entered (root : Node) : List Element → List Node → Node → Prop where
  | root : Entered root [] [] root
  | name {kept : List Element} {around : List Node} {n child : Node} {text : String}
      (outer : Entered root kept around n) (entered : n.member? text = some child) :
      Entered root (.name text :: kept) (n :: around) child

theorem Entered.walk_eq {root n : Node} {kept : List Element} {around : List Node}
    (h : Entered root kept around n) (index : Nat) : root.walk index kept.reverse = .ok n := by
  induction h with
  | root => rfl
  | name _ entered ih =>
    rw [List.reverse_cons, walk_append _ ih, walk_name (enter_eq_ok_iff.mpr entered)]
    rfl

/-- What is known of a pass over the elements when a walk along them from `root` has ended: it finds
names that lead to the end of the walk, or it fails where the walk leaves the root or meets a root
marker.  Of a walk that is stuck nothing is known, since a later `..` may delete the name. -/
def Ending.Tells (root : Node) (result : Except Path.Error (List Element)) : Ending → Prop
  | .at n => ∃ found, result = .ok found ∧ ∀ index, root.walk index found = .ok n
  | .stuck _ => True
  | .aboveRoot index => result = .error (.escapesRoot index)
  | .marker index => result = .error (.unexpectedRoot index)

/-- One pass over the elements goes along with the walk. -/
theorem Entered.tells {root : Node} (rest : List Element) :
    ∀ {n : Node} {kept : List Element} {around : List Node} (index : Nat),
      Entered root kept around n →
        (n.backtrack around index rest).Tells root (Path.resolve kept index rest) := by
  induction rest with
  | nil =>
    intro n kept around index h
    exact ⟨kept.reverse, rfl, fun i => h.walk_eq i⟩
  | cons e rest ih =>
    intro n kept around index h
    cases e with
    | self => exact ih (index + 1) h
    | name text =>
      rw [backtrack]
      cases hm : n.member? text with
      | none => trivial
      | some child => exact ih (index + 1) (.name h hm)
    | parent =>
      cases h with
      | root => rfl
      | name outer _ => exact ih (index + 1) outer
    | root => rfl

/-- **Normalizing keeps what a path means.**  Where a walk from the root that turns back at every
`..` ends, there the normalized path leads; and where the walk leaves the root or meets a root
marker, normalizing fails at that element. -/
theorem backtrack_normalize (root : Node) (p : Path) (habsolute : p.absolute = true) :
    (∀ n, root.backtrack [] 0 p.elements = .at n →
        ∃ q, p.normalize = .ok q ∧ q.Normal ∧ root.at? q = .ok n) ∧
      (∀ index, root.backtrack [] 0 p.elements = .aboveRoot index →
        p.normalize = .error (.escapesRoot index)) ∧
      ∀ index, root.backtrack [] 0 p.elements = .marker index →
        p.normalize = .error (.unexpectedRoot index) := by
  have htells := (Entered.root : Entered root [] [] root).tells p.elements 0
  have hnormalize : p.normalize = (Path.resolve [] 0 p.elements).map fun es => ⟨es, true⟩ := by
    rw [Path.normalize, if_pos habsolute]
  refine ⟨fun n hn => ?_, fun index hi => ?_, fun index hi => ?_⟩
  · rw [hn] at htells
    obtain ⟨found, hfound, hwalk⟩ := htells
    rw [hfound] at hnormalize
    exact ⟨_, hnormalize, Path.normal_of_normalize hnormalize, at?_eq_ok_iff.mpr (hwalk 0)⟩
  · rw [hi] at htells
    rw [hnormalize, htells]
    rfl
  · rw [hi] at htells
    rw [hnormalize, htells]
    rfl

/-- A pet is looked at behind an optional layer before the walk turns back twice; with one `..` more
it leaves the root. -/
theorem backtrack_normalize_pet :
    let horse : RecordType := ⟨"Horse", [("Name", .string), ("Tack", .mapping)]⟩
    let tack : Node := .mapping [("bit", .bool true)]
    let root : Node := .mapping [("pet", .indirect (.record horse
      [("Name", .string "Bo"), ("Tack", tack)])), ("kind", .string "horse")]
    let there : List Element := [.name "pet", .self, .name "Tack", .name "bit", .parent]
    let kind : Path := ⟨there ++ [.parent, .parent, .name "kind"], true⟩
    let above : Path := ⟨there ++ [.parent, .parent, .parent, .name "kind"], true⟩
    root.backtrack [] 0 kind.elements = .at (.string "horse") ∧
      (∃ q, kind.normalize = .ok q ∧ q.Normal ∧ root.at? q = .ok (.string "horse")) ∧
      root.backtrack [] 0 above.elements = .aboveRoot 7 ∧
      above.normalize = .error (.escapesRoot 7) := by
  intro horse tack root there kind above
  have hkind : root.backtrack [] 0 kind.elements = .at (.string "horse") := by
    simp [root, kind, there, horse, tack, backtrack, member?, core, Entries.get?, Entries.find?,
      Entries.resolve?]
  have habove : root.backtrack [] 0 above.elements = .aboveRoot 7 := by
    simp [root, above, there, horse, tack, backtrack, member?, core, Entries.get?, Entries.find?,
      Entries.resolve?]
  exact ⟨hkind, (backtrack_normalize root kind rfl).1 _ hkind, habove,
    (backtrack_normalize root above rfl).2.1 _ habove⟩

end Polydoc.Node
