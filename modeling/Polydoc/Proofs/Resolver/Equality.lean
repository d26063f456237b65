/-
  Proofs/Resolver/Equality.lean --- rules that ask for equality, and the indirect layers of what
  they look at.

  Such a rule takes off the layers around the value that it finds, and compares what is left with
  the expected value as it is.  So it is never wrong when it applies, but layers inside the one or
  the other, or around the expected value, keep it from applying.
-/
import Polydoc.Proofs.Navigation.Composing
import Polydoc.Proofs.Node.Unwrapping
import Polydoc.Proofs.Resolver.Respecting

set_option autoImplicit false

namespace Polydoc

open Node

section Condition

variable {expected found : Node} (he : Formed expected) (hf : Formed found)

include he hf

theorem Condition.equals_iff :
    Condition.equals expected found = true ↔ Reordered found.core expected :=
  beq_iff (hf.part (part_core found)) he

/-- What equals an expected value is equal to it without the layers of both, and has layers inside
just if the expected value has. -/
theorem Condition.equals_unwrapped (h : Condition.equals expected found = true) :
    (found.unwrapped == expected.unwrapped) = true ∧
      (LayerFree found.core ↔ LayerFree expected) := by
  have hr := (Condition.equals_iff he hf).mp h
  refine ⟨?_, hr.symm.layerFree he, hr.layerFree (hf.part (part_core found))⟩
  rw [beq_iff hf.unwrapped he.unwrapped, ← unwrapped_core found]
  exact hr.unwrapped

/-- Where an expected value has no layers, what equals it but for layers is recognized just if no
layer stands inside. -/
theorem Condition.equals_iff_of_layerFree (hfree : LayerFree expected) :
    Condition.equals expected found = true ↔
      LayerFree found.core ∧ (found.unwrapped == expected) = true := by
  have hexpected : expected.unwrapped = expected := hfree.unwrapped_eq
  constructor
  · intro h
    obtain ⟨hequal, hlayers⟩ := Condition.equals_unwrapped he hf h
    rw [hexpected] at hequal
    exact ⟨hlayers.mpr hfree, hequal⟩
  · rintro ⟨hcore, hequal⟩
    rw [← unwrapped_core found, hcore.unwrapped_eq] at hequal
    exact hequal

end Condition

/-- Nothing is recognized as equal to a value with a layer around it. -/
theorem Condition.equals_indirect (inner found : Node) :
    Condition.equals (.indirect inner) found = false := by
  have hcore := core_ne_indirect found
  unfold Condition.equals
  generalize found.core = c at hcore
  cases c with
  | indirect n => exact absurd rfl (hcore n)
  | _ => rfl

/-! ## Values in which nothing stands -/

/-- A value in which nothing stands. -/
inductive Atom : Node → Prop where
  | null : Atom .null
  | scalar (s : Scalar) : Atom (.scalar s)
  | sequence : Atom (.sequence [])
  | mapping : Atom (.mapping [])
  | record (type : RecordType) : Atom (.record type [])

section Atom

variable {expected found : Node}

theorem Atom.layerFree (h : Atom expected) : LayerFree expected := by
  intro inner hp
  cases h with
  | null => cases hp
  | scalar s => cases hp
  | sequence => cases hp with | item mem => cases mem
  | mapping => cases hp with | entry mem => cases mem
  | record type => cases hp with | field mem => cases mem

/-- What equals an atom without its layers has none inside. -/
theorem Atom.layerFree_core (h : Atom expected) (hequal : Reordered found.unwrapped expected) :
    LayerFree found.core := by
  have hopens := opens_core found
  generalize found.core = c at hopens ⊢
  generalize found.unwrapped = u at hopens hequal
  cases hopens with
  | null => exact Atom.null.layerFree
  | scalar s => exact (Atom.scalar s).layerFree
  | @sequence xs ys items =>
    cases hequal with
    | sequence length_eq _ =>
      cases h
      cases xs with
      | nil => exact Atom.sequence.layerFree
      | cons n rest => cases items ▸ length_eq
  | @mapping xs ys entries =>
    cases hequal with
    | mapping keys _ =>
      cases h
      cases xs with
      | nil => exact Atom.mapping.layerFree
      | cons e rest => cases entries ▸ keys.length_eq
  | @record type xs ys fields =>
    cases hequal with
    | record _ keys _ =>
      cases h
      cases xs with
      | nil => exact (Atom.record type).layerFree
      | cons e rest => cases fields ▸ keys

/-- In or around a value that is no atom a layer can be put, so that nothing but layers differs. -/
theorem exists_layered (he : Formed expected) (h : ¬ Atom expected) :
    ∃ found, Formed found ∧ found.unwrapped = expected.unwrapped ∧
      Condition.equals expected found = false := by
  have hfalse {n : Node} (hn : Formed n) (hne : ¬ Reordered n.core expected) :
      Condition.equals expected n = false :=
    Bool.eq_false_iff.mpr fun hequal => hne ((Condition.equals_iff he hn).mp hequal)
  cases expected with
  | null => exact absurd .null h
  | scalar s => exact absurd (.scalar s) h
  | indirect n => exact ⟨.indirect n, he, rfl, Condition.equals_indirect n _⟩
  | sequence items =>
    cases items with
    | nil => exact absurd .sequence h
    | cons n rest =>
      obtain ⟨hn, hrest⟩ := List.forall_mem_cons.mp (formed_sequence_iff.mp he)
      have hf : Formed (.sequence (.indirect n :: rest)) :=
        formed_sequence_iff.mpr (List.forall_mem_cons.mpr ⟨hn.indirect, hrest⟩)
      refine ⟨_, hf, rfl, hfalse hf fun hequal => ?_⟩
      cases hequal with
      | sequence _ items => exact not_reordered_indirect n (items 0 _ _ rfl rfl)
  | mapping entries =>
    cases entries with
    | nil => exact absurd .mapping h
    | cons e rest =>
      obtain ⟨hkeys, hvalues⟩ := formed_mapping_iff.mp he
      obtain ⟨hn, hrest⟩ := List.forall_mem_cons.mp hvalues
      have hf : Formed (.mapping ((e.1, .indirect e.2) :: rest)) :=
        formed_mapping_iff.mpr ⟨hkeys, List.forall_mem_cons.mpr ⟨hn.indirect, hrest⟩⟩
      refine ⟨_, hf, rfl, hfalse hf fun hequal => ?_⟩
      cases hequal with
      | mapping _ values =>
        exact not_reordered_indirect e.2
          (values e.1 _ _ (Entries.get?_of_mem (formed_mapping_iff.mp hf).1 List.mem_cons_self)
            (Entries.get?_of_mem hkeys List.mem_cons_self))
  | record type held =>
    cases held with
    | nil => exact absurd (.record type) h
    | cons e rest =>
      obtain ⟨hkeys, hvalues⟩ := formed_record_iff.mp he
      obtain ⟨hn, hrest⟩ := List.forall_mem_cons.mp hvalues
      have hf : Formed (.record type ((e.1, .indirect e.2) :: rest)) :=
        formed_record_iff.mpr ⟨hkeys, List.forall_mem_cons.mpr ⟨hn.indirect, hrest⟩⟩
      refine ⟨_, hf, rfl, hfalse hf fun hequal => ?_⟩
      cases hequal with
      | record _ _ values =>
        exact not_reordered_indirect e.2
          (values e.1 _ _ (Entries.get?_of_mem hf.distinct List.mem_cons_self)
            (Entries.get?_of_mem he.distinct List.mem_cons_self))

/-- Atoms, and nothing else, are recognized in all that is the same value. -/
theorem atom_iff (he : Formed expected) : Atom expected ↔
    ∀ found, Formed found → (Condition.equals expected found = true ↔
      (found.unwrapped == expected.unwrapped) = true) := by
  constructor
  · intro h found hf
    rw [Condition.equals_iff_of_layerFree he hf h.layerFree, h.layerFree.unwrapped_eq,
      beq_iff hf.unwrapped he]
    exact and_iff_right_of_imp h.layerFree_core
  · intro h
    by_contra hatom
    obtain ⟨found, hf, hsame, hequal⟩ := exists_layered he hatom
    have hrefl : (found.unwrapped == expected.unwrapped) = true := by
      rw [hsame, beq_iff he.unwrapped he.unwrapped]
      exact .refl _
    rw [(h found hf).mpr hrefl] at hequal
    cases hequal

end Atom

/-- What a path leads to is formed as the whole is. -/
theorem Node.Formed.at? {n found : Node} (h : Formed n) {p : Path} (hp : n.at? p = .ok found) :
    Formed found := by
  have hresult := congruence_equal.at? (equal_of_reordered h h (.refl n)) p
  rw [hp] at hresult
  cases hresult with
  | ok hfound => exact hfound.left

/-! ## Rules -/

/-- A rule that asks for equality with a value without layers, and that finds in none of some
sources a value that equals it but for layers inside. -/
def Rule.SeesThrough (rule : Rule) (sources : List Node) : Prop :=
  ∃ expected, Formed expected ∧ LayerFree expected ∧ rule.condition = Condition.equals expected ∧
    ∀ source ∈ sources, ∀ found, source.at? rule.place = .ok found →
      (found.unwrapped == expected) = true → LayerFree found.core

/-- A rule that asks for an atom sees through all layers, in sources as they are made. -/
theorem Atom.seesThrough {expected : Node} (h : Atom expected) (he : Formed expected) {rule : Rule}
    (hrule : rule.condition = Condition.equals expected) {sources : List Node}
    (hsources : ∀ source ∈ sources, Formed source) : rule.SeesThrough sources := by
  refine ⟨expected, he, h.layerFree, hrule, fun source hs found hfound hequal => ?_⟩
  exact h.layerFree_core ((beq_iff ((hsources source hs).at? hfound).unwrapped he).mp hequal)

namespace Resolver

section Choosing

variable {source other : Node} (hs : Formed source) (ho : Formed other)
  (h : source.SameValue other)

include hs ho h

/-- A rule that sees through the layers of two sources that are the same value applies to both or to
neither, or fails in both. -/
theorem applies_eq_of_sameValue {rule : Rule} (hrule : rule.SeesThrough [source, other]) :
    rule.applies source = rule.applies other := by
  obtain ⟨expected, he, hfree, hcondition, hclear⟩ := hrule
  unfold Rule.applies
  rcases map_eq_map_cases (h.at? rule.place) with ⟨m, n, hm, hn, hview⟩ | ⟨e, hm, hn⟩
  · have hclearm := hclear source List.mem_cons_self m hm
    have hclearn := hclear other (List.mem_cons_of_mem _ List.mem_cons_self) n hn
    have hequals : Condition.equals expected m = Condition.equals expected n := by
      rw [Bool.eq_iff_iff, Condition.equals_iff_of_layerFree he (hs.at? hm) hfree,
        Condition.equals_iff_of_layerFree he (ho.at? hn) hfree, and_iff_right_of_imp hclearm,
        and_iff_right_of_imp hclearn, hview]
    rw [hm, hn, hcondition, Except.map, Except.map, hequals]
  · rw [hm, hn]

theorem firstRule_eq_of_sameValue {rules : List Rule}
    (hrules : ∀ rule ∈ rules, rule.SeesThrough [source, other]) (index : Nat) :
    firstRule source index rules = firstRule other index rules := by
  induction rules generalizing index with
  | nil => rfl
  | cons rule rest ih =>
    rw [firstRule, firstRule, applies_eq_of_sameValue hs ho h (hrules rule List.mem_cons_self),
      ih fun r hr => hrules r (List.mem_cons_of_mem _ hr)]

end Choosing

/-- **Rules of equality and indirect layers.**  Values are taken as they are made, with each key of
a mapping once.  A rule that applies is right: the value found equals the expected one without the
layers of both.  A value without layers is recognized in all that equals it but for layers, unless
some of them stand inside; layers around the value found never matter.  An expected value is
recognized in all that equals it but for layers just if nothing stands in it.  Where no layers stand
inside what equals the expected values of some rules, sources that are the same value choose by the
same rule. -/
theorem equality_up_to_layers {expected : Node} (he : Formed expected) :
    (∀ found, Formed found → Condition.equals expected found = true →
        (found.unwrapped == expected.unwrapped) = true) ∧
      (LayerFree expected → ∀ found, Formed found →
        (Condition.equals expected found = true ↔
          LayerFree found.core ∧ (found.unwrapped == expected) = true)) ∧
      ((∀ found, Formed found → (Condition.equals expected found = true ↔
        (found.unwrapped == expected.unwrapped) = true)) ↔ Atom expected) ∧
      ∀ rules source other, Formed source → Formed other → source.SameValue other →
        (∀ rule ∈ rules, rule.SeesThrough [source, other]) →
        Strategy.choose source (.rules rules) = Strategy.choose other (.rules rules) :=
  ⟨fun _ hf h => (Condition.equals_unwrapped he hf h).1,
    fun hfree _ hf => Condition.equals_iff_of_layerFree he hf hfree,
    (atom_iff he).symm,
    fun _ _ _ hs ho h hrules => firstRule_eq_of_sameValue hs ho h hrules 0⟩

/-- A kind behind a layer, in a mapping behind a layer, is recognized as the kind alone is. -/
theorem equality_up_to_layers_horse :
    let horse : RecordType := ⟨"Horse", [("Shoes", .integer)]⟩
    let rules : List Rule := [⟨⟨[.name "kind"], true⟩, Condition.equals (.string "horse"), horse⟩]
    let source : Node := .mapping [("kind", .string "horse")]
    let other : Node := .indirect (.mapping [("kind", .indirect (.string "horse"))])
    Formed (.string "horse") ∧ Strategy.choose source (.rules rules) = .ok (.ok horse) ∧
      Strategy.choose source (.rules rules) = Strategy.choose other (.rules rules) := by
  intro horse rules source other
  have hkind : Formed (.string "horse") := (parsed_scalar _).formed
  have hone {n : Node} (hn : Formed n) : Formed (.mapping [("kind", n)]) := by
    refine formed_mapping_iff.mpr ⟨List.pairwise_singleton _ _, fun e he => ?_⟩
    cases List.mem_singleton.mp he
    exact hn
  have hsource : Formed source := hone hkind
  have hother : Formed other := (hone hkind.indirect).indirect
  have hrules : ∀ rule ∈ rules, rule.SeesThrough [source, other] := by
    intro rule hrule
    cases List.mem_singleton.mp hrule
    refine (Atom.scalar _).seesThrough hkind rfl fun n hn => ?_
    rcases List.mem_pair.mp hn with rfl | rfl
    · exact hsource
    · exact hother
  exact ⟨hkind, rfl, (equality_up_to_layers hkind).2.2.2 rules source other hsource hother rfl
    hrules⟩

/-- A layer around an expected value keeps it from equalling itself.  And a layer inside the value
found, as a decoded record has one around each optional field that is there, changes which rule is
the first to apply. -/
theorem layers_keep_rule_from_applying :
    let shod : Node := .mapping [("Shoes", .integer 4)]
    let decoded : Node := .mapping [("Shoes", .indirect (.integer 4))]
    let horse : RecordType := ⟨"Horse", [("Shoes", .integer)]⟩
    let rules : List Rule := [⟨⟨[.name "pet"], true⟩, Condition.equals shod, horse⟩]
    Condition.equals (.indirect (.integer 4)) (.indirect (.integer 4)) = false ∧
      decoded.SameValue shod ∧ Condition.equals shod decoded = false ∧
      Strategy.choose (.mapping [("pet", shod)]) (.rules rules) = .ok (.ok horse) ∧
      Strategy.choose (.mapping [("pet", decoded)]) (.rules rules) = .ok (.error .noRuleMatched) :=
  ⟨rfl, rfl, rfl, rfl, rfl⟩

end Resolver

end Polydoc
