/-
  Proofs/Resolver/Respecting.lean --- resolvers do not tell equal documents apart.

  Equal documents have the same keys, so a name enters equal members of both and replaces them in
  both, and what is found is the same scalar, or equals the same expected values.  A type map and
  rules that ask for equality look at nothing else.
-/
import Polydoc.Proofs.Node.Reordered
import Polydoc.Proofs.Resolver.Congruence

set_option autoImplicit false

namespace Polydoc

namespace Node

open Navigation

/-! ## Members of equal documents -/

section Members

variable {m n c d : Node} {xs ys : List (String × Node)}

/-- Under a key, both have values that are reordered, or neither has one. -/
theorem rel_get?_of_perm (keys : (Entries.keys xs).Perm (Entries.keys ys))
    (values : ∀ key m n, Entries.get? key xs = some m → Entries.get? key ys = some n →
      Reordered m n) (key : String) :
    Option.Rel Reordered (Entries.get? key xs) (Entries.get? key ys) := by
  cases hx : Entries.get? key xs with
  | some m =>
    obtain ⟨n, hn⟩ := exists_get?_of_perm keys hx
    rw [hn]
    exact .some (values key m n hx hn)
  | none =>
    cases hy : Entries.get? key ys with
    | none => exact .none
    | some n =>
      obtain ⟨m, hm⟩ := exists_get?_of_perm keys.symm hy
      rw [hx] at hm
      cases hm

theorem rel_get?_put (name : String) (hc : Reordered c d)
    (values : ∀ key m n, Entries.get? key xs = some m → Entries.get? key ys = some n →
      Reordered m n) (key : String) (m n : Node)
    (hm : Entries.get? key (Entries.put name c xs) = some m)
    (hn : Entries.get? key (Entries.put name d ys) = some n) : Reordered m n := by
  rw [Entries.get?_put] at hm hn
  by_cases hkey : name = key
  · rw [if_pos hkey] at hm hn
    cases hm
    cases hn
    exact hc
  · rw [if_neg hkey] at hm hn
    exact values key m n hm hn

theorem Reordered.enter (h : Reordered m n) (name : String) :
    SameResult Reordered (m.enter name) (n.enter name) := by
  have hcore := h.core
  unfold Node.enter
  generalize m.core = x at hcore ⊢
  generalize n.core = y at hcore ⊢
  cases hcore with
  | null => exact .error _
  | scalar s => exact .error _
  | sequence => exact .error _
  | indirect => exact .error _
  | @mapping xs ys keys values =>
    have hget := rel_get?_of_perm keys values name
    dsimp only
    generalize Entries.get? name xs = x at hget ⊢
    generalize Entries.get? name ys = y at hget ⊢
    cases hget with
    | none => exact .error _
    | some hmn => exact .ok hmn
  | @record type xs ys keys values =>
    dsimp only
    rw [Entries.find?, Entries.find?, Entries.resolve?_congr keys]
    cases Entries.resolve? name ys with
    | none => exact .error _
    | some key =>
      have hget := rel_get?_of_perm (.of_eq keys) values key
      dsimp only [Option.bind_some]
      generalize Entries.get? key xs = x at hget ⊢
      generalize Entries.get? key ys = y at hget ⊢
      cases hget with
      | none => exact .error _
      | some hmn => exact .ok hmn

theorem Reordered.setMember (h : Reordered m n) (hc : Reordered c d) (name : String) :
    Reordered (m.setMember name c) (n.setMember name d) := by
  have hcore := h.core
  unfold Node.setMember
  refine h.withCore ?_
  generalize m.core = x at hcore ⊢
  generalize n.core = y at hcore ⊢
  cases hcore with
  | null => exact .null
  | scalar s => exact .scalar s
  | sequence length_eq items => exact .sequence length_eq items
  | indirect inner => exact .indirect inner
  | @mapping xs ys keys values =>
    dsimp only
    by_cases hx : name ∈ Entries.keys xs
    · have hy : name ∈ Entries.keys ys := keys.mem_iff.mp hx
      rw [if_pos ((Entries.get?_isSome_iff name xs).mpr hx),
        if_pos ((Entries.get?_isSome_iff name ys).mpr hy)]
      refine .mapping ?_ (rel_get?_put name hc values)
      rw [Entries.keys_put_of_mem hx, Entries.keys_put_of_mem hy]
      exact keys
    · have hy : name ∉ Entries.keys ys := fun hmem => hx (keys.mem_iff.mpr hmem)
      rw [if_neg fun hs => hx ((Entries.get?_isSome_iff name xs).mp hs),
        if_neg fun hs => hy ((Entries.get?_isSome_iff name ys).mp hs)]
      exact .mapping keys values
  | @record type xs ys keys values =>
    dsimp only
    rw [Entries.resolve?_congr keys]
    cases hkey : Entries.resolve? name ys with
    | none => exact .record type keys values
    | some key =>
      have hy : key ∈ Entries.keys ys := Entries.mem_keys_of_resolve? hkey
      have hx : key ∈ Entries.keys xs := keys ▸ hy
      refine .record type ?_ (rel_get?_put key hc values)
      rw [Entries.keys_put_of_mem hx, Entries.keys_put_of_mem hy]
      exact keys

theorem Reordered.scalar?_eq (h : Reordered m n) : m.scalar? = n.scalar? := by
  have hcore := h.core
  unfold scalar?
  generalize m.core = x at hcore ⊢
  generalize n.core = y at hcore ⊢
  cases hcore <;> rfl

theorem Reordered.kindName_eq (h : Reordered m n) : m.kindName = n.kindName := by
  have hcore := h.core
  unfold kindName
  generalize m.core = x at hcore ⊢
  generalize n.core = y at hcore ⊢
  cases hcore <;> rfl

end Members

/-- Two formed documents that are equal. -/
structure Equal (m n : Node) : Prop where
  left : Formed m
  right : Formed n
  beq : (m == n) = true

section Equal

variable {m n : Node}

theorem Equal.reordered (h : Equal m n) : Reordered m n :=
  (beq_iff h.left h.right).mp h.beq

theorem equal_of_reordered (hm : Formed m) (hn : Formed n) (h : Reordered m n) : Equal m n :=
  ⟨hm, hn, (beq_iff hm hn).mpr h⟩

/-- What a name leads to is formed as the whole is. -/
theorem Formed.enter (h : Formed n) {name : String} {child : Node}
    (he : n.enter name = .ok child) : Formed child := by
  rcases enter_cases n name with ⟨_, found, _, hs, he'⟩ | ⟨_, he'⟩
  · rw [he] at he'
    cases he'
    exact h.part (part_of_stored? hs)
  · rw [he] at he'
    cases he'

theorem congruence_equal : Congruence Equal where
  enter {m n} h name := by
    have hstep := h.reordered.enter name
    generalize hx : m.enter name = x at hstep
    generalize hy : n.enter name = y at hstep
    cases hstep with
    | error o => exact .error o
    | ok hchild => exact .ok (equal_of_reordered (h.left.enter hx) (h.right.enter hy) hchild)
  setMember h hc name := equal_of_reordered (h.left.setMember hc.left name)
    (h.right.setMember hc.right name) (h.reordered.setMember hc.reordered name)

/-- A document that is made equals what either of two equal documents equals. -/
theorem Equal.equals_eq {expected : Node} (he : Formed expected) (h : Equal m n) :
    Condition.equals expected m = Condition.equals expected n := by
  have hm := beq_iff (h.left.part (part_core m)) he
  have hn := beq_iff (h.right.part (part_core n)) he
  unfold Condition.equals
  rw [Bool.eq_iff_iff, hm, hn]
  exact ⟨h.reordered.core.symm.trans, h.reordered.core.trans⟩

end Equal

end Node

open Node

/-- Whether a strategy goes by a type map, or by rules that ask whether a value equals an expected
one. -/
def Strategy.GoesByValue : Strategy → Prop
  | .rules given => ∀ rule ∈ given, ∃ expected, Formed expected ∧
      rule.condition = Condition.equals expected
  | .typeMap _ _ => True

theorem Strategy.GoesByValue.respects {strategy : Strategy} (h : strategy.GoesByValue) :
    strategy.Respects Equal := by
  cases strategy with
  | typeMap discriminator types =>
    exact fun _ _ heq => ⟨heq.reordered.scalar?_eq, heq.reordered.kindName_eq⟩
  | rules given =>
    intro rule hrule m n heq
    obtain ⟨expected, hformed, hcondition⟩ := h rule hrule
    rw [hcondition]
    exact heq.equals_eq hformed

namespace Resolver

theorem assign_equal {r : Resolver} (hr : r.strategy.GoesByValue)
    {source other target target' : Node} (hs : Equal source other) (ht : Equal target target') :
    SameUpTo Equal (r.assign source target) (r.assign other target') := by
  have hzero (t : RecordType) : Equal t.zero t.zero :=
    have hformed : Formed t.zero := formed_zero (.ofType t)
    equal_of_reordered hformed hformed (.refl _)
  exact assign_congr congruence_equal hr.respects hzero hs ht

/-- **Resolution respects the equality of documents.**  On documents whose records have the names of
their types and whose mappings have each key once, equality is an equivalence.  It overlooks the
order of keys in mappings, at any depth, and nothing else; an integer equals no float, and floats
are equal when their bits are.  A resolver that goes by a type map, or by rules that ask for
equality, answers the same for equal sources and equal targets, be it a result or an error, and
leaves equal targets. -/
theorem assign_respects_equality :
    (Equivalence fun m n : { n : Node // Formed n } => (m.1 == n.1) = true) ∧
      (∀ m n, Formed m → Formed n → ((m == n) = true ↔ Reordered m n)) ∧
      (∀ i x, (Node.integer i == Node.float x) = false) ∧
      (∀ x y, (Node.float x == Node.float y) = true ↔ x.bits = y.bits) ∧
      ∀ (r : Resolver) (source other target target' : Node), r.strategy.GoesByValue →
        Formed source → Formed other → Formed target → Formed target' →
        (source == other) = true → (target == target') = true →
        SameUpTo (fun m n => (m == n) = true) (r.assign source target)
          (r.assign other target') := by
  refine ⟨equivalence_beq, fun m n hm hn => beq_iff hm hn, fun i x => rfl, fun x y => ?_, ?_⟩
  · show ((Scalar.float x == Scalar.float y) = true ↔ x.bits = y.bits)
    rw [beq_iff_eq, Scalar.float.injEq]
    constructor
    · rintro rfl
      rfl
    · intro hbits
      cases x
      cases y
      exact congrArg Binary64.mk hbits
  · intro r source other target target' hr hsource hother htarget htarget' hs ht
    obtain ⟨hequal, hanswer⟩ := assign_equal hr ⟨hsource, hother, hs⟩ ⟨htarget, htarget', ht⟩
    exact ⟨hequal.beq, hanswer⟩

/-- A rule asks for a mapping with a NaN in it, which stands in the source with its keys in another
order. -/
theorem assign_respects_equality_pet :
    let horse : RecordType := ⟨"Horse", [("Shoes", .integer)]⟩
    let tag : Node := .mapping [("kind", .string "horse"), ("size", .float Binary64.nan)]
    let tag' : Node := .mapping [("size", .float Binary64.nan), ("kind", .string "horse")]
    let r : Resolver := ⟨⟨[.name "pet"], true⟩, .strict,
      .rules [⟨⟨[.name "tag"], true⟩, Condition.equals tag', horse⟩]⟩
    let source : Node := .mapping [("tag", tag), ("id", .integer 1)]
    let other : Node := .mapping [("id", .integer 1), ("tag", tag')]
    let target : Node := .mapping [("pet", .null), ("home", .bool true)]
    let target' : Node := .mapping [("home", .bool true), ("pet", .null)]
    (source == other) = true ∧ (target == target') = true ∧ r.choose source = .ok (.ok horse) ∧
      SameUpTo (fun m n => (m == n) = true) (r.assign source target) (r.assign other target') := by
  intro horse tag tag' r source other target target'
  have hpair {first second : String × Node} (hkeys : first.1 ≠ second.1) (hfirst : Parsed first.2)
      (hsecond : Parsed second.2) : Parsed (.mapping [first, second]) := by
    refine parsed_mapping (by simpa [Entries.Distinct, Entries.keys] using hkeys) fun e he => ?_
    simp only [List.mem_cons, List.not_mem_nil, or_false] at he
    rcases he with rfl | rfl
    · exact hfirst
    · exact hsecond
  have htag : Parsed tag := hpair (by decide) (parsed_scalar _) (parsed_scalar _)
  have htag' : Parsed tag' := hpair (by decide) (parsed_scalar _) (parsed_scalar _)
  have hsource : Parsed source := hpair (by decide) htag (parsed_scalar _)
  have hother : Parsed other := hpair (by decide) (parsed_scalar _) htag'
  have htarget : Parsed target := hpair (by decide) parsed_null (parsed_scalar _)
  have htarget' : Parsed target' := hpair (by decide) (parsed_scalar _) parsed_null
  have hr : r.strategy.GoesByValue := by
    intro rule hrule
    cases List.mem_singleton.mp hrule
    exact ⟨tag', htag'.formed, rfl⟩
  have hs : (source == other) = true := by decide +kernel
  have ht : (target == target') = true := by decide +kernel
  exact ⟨hs, ht, rfl, assign_respects_equality.2.2.2.2 r source other target target' hr
    hsource.formed hother.formed htarget.formed htarget'.formed hs ht⟩

end Resolver

end Polydoc
