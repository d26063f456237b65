/-
  Proofs/Resolver/Congruence.lean --- what a relation between documents must keep for a resolver not
  to tell related documents apart.

  A resolver looks at a source through the conditions of its rules, or through the scalar at its
  discriminator, and at a target only through a path.
-/
import Polydoc.Proofs.Navigation.Congruence
import Polydoc.Resolver.Basic

set_option autoImplicit false

namespace Polydoc

open Node

/-- Whether what a strategy asks of a node that it finds is the same for related nodes. -/
def Strategy.Respects (rel : Node → Node → Prop) : Strategy → Prop
  | .rules given => ∀ rule ∈ given, ∀ m n, rel m n → rule.condition m = rule.condition n
  | .typeMap _ _ => ∀ m n, rel m n → m.scalar? = n.scalar? ∧ m.kindName = n.kindName

namespace Resolver

section Congruence

variable {rel : Node → Node → Prop} (hrel : Congruence rel) {source other target target' : Node}

include hrel

/-- The same rule applies first, or the same one fails. -/
theorem firstRule_congr (hs : rel source other) {rules : List Rule}
    (h : ∀ rule ∈ rules, ∀ m n, rel m n → rule.condition m = rule.condition n) (index : Nat) :
    firstRule source index rules = firstRule other index rules := by
  induction rules generalizing index with
  | nil => rfl
  | cons rule rest ih =>
    have happlies : rule.applies source = rule.applies other :=
      (hrel.at? hs rule.place).map_eq (h rule List.mem_cons_self)
    rw [firstRule, firstRule, happlies, ih fun r hr => h r (List.mem_cons_of_mem _ hr)]

variable {r : Resolver} (hr : r.strategy.Respects rel)

include hr

theorem choose_congr (hs : rel source other) : r.choose source = r.choose other := by
  unfold choose
  generalize r.strategy = strategy at hr
  cases strategy with
  | rules rules => exact firstRule_congr hrel hs hr 0
  | typeMap discriminator types =>
    have hfound := hrel.at? hs discriminator
    unfold Strategy.choose
    dsimp only
    generalize source.at? discriminator = x at hfound
    generalize other.at? discriminator = y at hfound
    cases hfound with
    | error e => rfl
    | ok h =>
      obtain ⟨hscalar, hkind⟩ := hr _ _ h
      dsimp only
      rw [mapped, mapped, shownValue, shownValue, hscalar, hkind]

/-- A type is assigned to related targets, or to neither, and the answer is the same. -/
theorem assign_congr (hzero : ∀ t : RecordType, rel t.zero t.zero) (hs : rel source other)
    (ht : rel target target') : SameUpTo rel (r.assign source target) (r.assign other target') := by
  unfold assign
  rw [choose_congr hrel hr hs]
  cases r.choose other with
  | error e => exact ⟨ht, rfl⟩
  | ok choice =>
    cases choice with
    | error reason =>
      cases r.policy with
      | strict => exact ⟨ht, rfl⟩
      | soft => exact ⟨ht, rfl⟩
    | ok type =>
      have hset := hrel.setAt? ht (hzero type) r.target
      unfold assignTypeAt?
      dsimp only
      generalize target.setAt? r.target type.zero = x at hset
      generalize target'.setAt? r.target type.zero = y at hset
      cases hset with
      | ok h => exact ⟨h, rfl⟩
      | error e => exact ⟨ht, rfl⟩

end Congruence

end Resolver

end Polydoc
