/-
  Proofs/Resolver/Agreement.lean --- a type map is a list of rules, one for each value of the
  discriminator, in any order.

  The rules all look at the same place, so they fail together, and no two of them ask for the same
  scalar, so at most one matches.  Which one does not depend on their order.
-/
import Polydoc.Proofs.Resolver.Contract

set_option autoImplicit false

namespace Polydoc

/-- A value equals a scalar if it is that scalar below the indirect layers. -/
theorem Condition.equals_scalar_iff (key : Scalar) (found : Node) :
    Condition.equals (.scalar key) found = true ↔ found.scalar? = some key := by
  unfold Condition.equals Node.scalar?
  cases found.core with
  | scalar value =>
    show (value == key) = true ↔ some value = some key
    rw [beq_iff_eq, Option.some.injEq]
  | _ =>
    constructor
    · intro h
      cases h
    · intro h
      cases h

namespace Resolver

/-- The rule that chooses the type of one entry of a type map. -/
def entryRule (discriminator : Path) (entry : Scalar × RecordType) : Rule :=
  ⟨discriminator, Condition.equals (.scalar entry.1), entry.2⟩

section Rules

variable {source : Node} {discriminator : Path}

theorem applies_entryRule_error {cause : Navigation.Error}
    (h : source.at? discriminator = .error cause) (entry : Scalar × RecordType) :
    (entryRule discriminator entry).applies source = .error cause := by
  unfold Rule.applies entryRule
  rw [h]
  rfl

theorem applies_entryRule_ok {found : Node} (h : source.at? discriminator = .ok found)
    (entry : Scalar × RecordType) :
    (entryRule discriminator entry).applies source =
      .ok (decide (found.scalar? = some entry.1)) := by
  have hequals : Condition.equals (.scalar entry.1) found =
      decide (found.scalar? = some entry.1) := by
    rw [Bool.eq_iff_iff, Condition.equals_scalar_iff, decide_eq_true_iff]
  unfold Rule.applies entryRule
  rw [h, ← hequals]
  rfl

variable {types : TypeMap} {rules : List Rule}

/-- The rules of a type map, in whatever order, select the type that the map has for the value. -/
theorem selects_rules (hdistinct : Entries.Distinct types.entries)
    (hrules : rules.Perm (types.entries.map (entryRule discriminator))) {found : Node}
    {key : Scalar} {type : RecordType} (hread : source.at? discriminator = .ok found)
    (hscalar : found.scalar? = some key) (hstored : types.get? key = some type) :
    Selects source (.rules rules) type := by
  -- every rule that is not passed over is the one of this key
  have happlies {rule : Rule} (hr : rule ∈ rules) :
      rule.applies source = .ok false ∨ rule.applies source = .ok true ∧ rule.type = type := by
    obtain ⟨entry, hentry, rfl⟩ := List.mem_map.mp (hrules.mem_iff.mp hr)
    rw [applies_entryRule_ok hread, hscalar]
    by_cases hkey : key = entry.1
    · subst hkey
      have hget : types.get? entry.1 = some entry.2 := Entries.get?_of_mem hdistinct hentry
      rw [hstored, Option.some.injEq] at hget
      exact .inr ⟨by simp, hget.symm⟩
    · exact .inl (by simp [hkey])
  rcases passed_or_first source rules with hpassed | ⟨before, rule, after, rfl, hbefore, hrule⟩
  · have hentry : (key, type) ∈ types.entries := Entries.mem_of_get? hstored
    have hmem : entryRule discriminator (key, type) ∈ rules :=
      hrules.mem_iff.mpr (List.mem_map_of_mem hentry)
    have hfalse := hpassed _ hmem
    rw [applies_entryRule_ok hread, hscalar] at hfalse
    simp at hfalse
  · rcases happlies (List.mem_append_right before List.mem_cons_self) with hfalse | ⟨htrue, rfl⟩
    · exact absurd hfalse hrule
    · exact .rule hbefore htrue

/-- Where the map has no type for the value, every rule is passed over. -/
theorem passed_rules (hrules : rules.Perm (types.entries.map (entryRule discriminator)))
    {found : Node} (hread : source.at? discriminator = .ok found)
    (hnone : ∀ key, found.scalar? = some key → types.get? key = none) :
    Passed source rules := by
  intro rule hr
  obtain ⟨entry, hentry, rfl⟩ := List.mem_map.mp (hrules.mem_iff.mp hr)
  rw [applies_entryRule_ok hread]
  by_cases hkey : found.scalar? = some entry.1
  · have hmem : entry.1 ∈ Entries.keys types.entries := List.mem_map_of_mem hentry
    have hsome : (types.get? entry.1).isSome = true :=
      (Entries.get?_isSome_iff entry.1 types.entries).mpr hmem
    rw [hnone entry.1 hkey] at hsome
    cases hsome
  · simp [hkey]

/-- Where the discriminator cannot be read, the first rule fails. -/
theorem fails_rules (hne : types.entries ≠ [])
    (hrules : rules.Perm (types.entries.map (entryRule discriminator)))
    {cause : Navigation.Error} (hread : source.at? discriminator = .error cause) :
    Fails source (.rules rules) (.evaluateRule 0) cause := by
  cases rules with
  | nil => exact absurd (List.map_eq_nil_iff.mp (List.nil_perm.mp hrules)) hne
  | cons rule rest =>
    obtain ⟨entry, _, rfl⟩ := List.mem_map.mp (hrules.mem_iff.mp List.mem_cons_self)
    have hnone : Passed source [] := fun r hr => absurd hr List.not_mem_nil
    exact .rule hnone (applies_entryRule_error hread entry)

end Rules

/-! ## Outcomes that differ in wording alone -/

/-- Two results that differ at most in what was being done when a path could not be followed, and in
why no type was chosen. -/
inductive Alike : Except Error Bool → Except Error Bool → Prop where
  | ok (applied : Bool) : Alike (.ok applied) (.ok applied)
  | navigation (activity activity' : Activity) (cause : Navigation.Error) :
      Alike (.error (.navigation activity cause)) (.error (.navigation activity' cause))
  | unresolved (target : Path) (reason reason' : Reason) :
      Alike (.error (.unresolved target reason)) (.error (.unresolved target reason'))

theorem Alike.refl (result : Except Error Bool) : Alike result result := by
  cases result with
  | ok applied => exact .ok applied
  | error e =>
    cases e with
    | navigation activity cause => exact .navigation activity activity cause
    | unresolved target reason => exact .unresolved target reason reason

/-- The same target is left, with results that are alike. -/
def SameOutcome (one other : Node × Except Error Bool) : Prop :=
  one.1 = other.1 ∧ Alike one.2 other.2

section Outcomes

variable {source : Node} {s s' : Strategy} (target : Path) (policy : Policy) (slots : Node)

theorem sameOutcome_of_selects {type : RecordType} (h : Selects source s type)
    (h' : Selects source s' type) :
    SameOutcome ((Resolver.mk target policy s).assign source slots)
      ((Resolver.mk target policy s').assign source slots) := by
  have hassign : (Resolver.mk target policy s').assign source slots =
      (Resolver.mk target policy s).assign source slots := by
    unfold assign choose
    rw [choose_of_selects h, choose_of_selects h']
  rw [hassign]
  exact ⟨rfl, .refl _⟩

theorem sameOutcome_of_fails {activity activity' : Activity} {cause : Navigation.Error}
    (h : Fails source s activity cause) (h' : Fails source s' activity' cause) :
    SameOutcome ((Resolver.mk target policy s).assign source slots)
      ((Resolver.mk target policy s').assign source slots) := by
  rw [assign_of_fails (r := ⟨target, policy, s⟩) h, assign_of_fails (r := ⟨target, policy, s'⟩) h']
  exact ⟨rfl, .navigation activity activity' cause⟩

theorem sameOutcome_of_undecided {reason reason' : Reason} (h : Undecided source s reason)
    (h' : Undecided source s' reason') :
    SameOutcome ((Resolver.mk target policy s).assign source slots)
      ((Resolver.mk target policy s').assign source slots) := by
  rw [assign_of_undecided (r := ⟨target, policy, s⟩) h,
    assign_of_undecided (r := ⟨target, policy, s'⟩) h']
  cases policy with
  | strict => exact ⟨rfl, .unresolved target reason reason'⟩
  | soft => exact ⟨rfl, .ok false⟩

end Outcomes

/-- **The two strategies agree.**  A resolver with a type map that is not empty, and one with a rule
for each entry of the map, in any order, leave the same target with the same result, but for the
wording of an error. -/
theorem typeMap_agrees_with_rules (target discriminator : Path) (policy : Policy) {types : TypeMap}
    (hdistinct : Entries.Distinct types.entries) (hne : types.entries ≠ []) {rules : List Rule}
    (hrules : rules.Perm (types.entries.map (entryRule discriminator))) (source slots : Node) :
    SameOutcome ((Resolver.mk target policy (.typeMap discriminator types)).assign source slots)
      ((Resolver.mk target policy (.rules rules)).assign source slots) := by
  rcases verdict source (.typeMap discriminator types) with
    ⟨type, hs⟩ | ⟨activity, cause, hf⟩ | ⟨reason, hu⟩
  · have hrule : Selects source (.rules rules) type := by
      cases hs with
      | mapped read scalar stored => exact selects_rules hdistinct hrules read scalar stored
    exact sameOutcome_of_selects target policy slots hs hrule
  · have hrule : Fails source (.rules rules) (.evaluateRule 0) cause := by
      cases hf with
      | discriminator unread => exact fails_rules hne hrules unread
    exact sameOutcome_of_fails target policy slots hf hrule
  · have hpassed : Passed source rules := by
      cases hu with
      | noScalar read none =>
        refine passed_rules hrules read fun key hkey => ?_
        rw [none] at hkey
        cases hkey
      | unmapped read scalar absent =>
        refine passed_rules hrules read fun key hkey => ?_
        rw [scalar] at hkey
        cases hkey
        exact absent
    exact sameOutcome_of_undecided target policy slots hu (.rules hpassed)

/-- A type map in which one value is given twice, its rules in another order, and a discriminator
behind an indirect layer. -/
theorem typeMap_agrees_with_rules_pony :
    let horse : RecordType := ⟨"Horse", [("hands", .integer)]⟩
    let pony : RecordType := ⟨"Pony", [("mane", .string)]⟩
    let types : TypeMap := .ofList [(.string "pony", horse), (.integer 4, horse),
      (.string "pony", pony)]
    let target : Path := ⟨[.name "pet"], true⟩
    let discriminator : Path := ⟨[.name "kind"], true⟩
    let rules : List Rule := [entryRule discriminator (.integer 4, horse),
      entryRule discriminator (.string "pony", pony)]
    let source : Node := .mapping [("kind", .indirect (.string "pony"))]
    let slots : Node := .mapping [("pet", .null)]
    Entries.Distinct types.entries ∧ types.entries ≠ [] ∧
      rules.Perm (types.entries.map (entryRule discriminator)) ∧
      (Resolver.mk target .strict (.rules rules)).assign source slots =
        (.mapping [("pet", pony.zero)], .ok true) ∧
      SameOutcome
        ((Resolver.mk target .strict (.typeMap discriminator types)).assign source slots)
        ((Resolver.mk target .strict (.rules rules)).assign source slots) := by
  intro horse pony types target discriminator rules source slots
  have hdistinct : Entries.Distinct types.entries := Entries.distinct_ofList _
  have hentries : types.entries = [(.string "pony", pony), (.integer 4, horse)] := by decide
  have hne : types.entries ≠ [] := by simp [hentries]
  have hrules : rules.Perm (types.entries.map (entryRule discriminator)) := by
    rw [hentries]
    exact .swap _ _ _
  exact ⟨hdistinct, hne, hrules, rfl,
    typeMap_agrees_with_rules target discriminator .strict hdistinct hne hrules source slots⟩

end Resolver

end Polydoc
