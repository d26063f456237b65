/-
  Proofs/Resolver/Contract.lean --- what a resolver promises: which type it selects, and what it
  does to the target.

  What a strategy comes to is said without the search.  It selects a type (`Selects`), it fails on
  the way (`Fails`), or it leaves the type open (`Undecided`); for every source it does one of the
  three.  The target is written in the first case alone, and the policy is asked in the last alone.
-/
import Polydoc.Proofs.Navigation.Overwriting

set_option autoImplicit false

namespace Polydoc.Resolver

/-! ## What a strategy comes to -/

/-- Every rule is evaluated without an error, and none matches. -/
def Passed (source : Node) (rules : List Rule) : Prop :=
  ∀ rule ∈ rules, rule.applies source = .ok false

/-- The type that a strategy selects: that of a rule that matches behind rules that do not, or the
one that the scalar at the discriminator stands for. -/
inductive Selects (source : Node) : Strategy → RecordType → Prop where
  | rule {before after : List Rule} {rule : Rule} (passed : Passed source before)
      (matched : rule.applies source = .ok true) :
      Selects source (.rules (before ++ rule :: after)) rule.type
  | mapped {discriminator : Path} {types : TypeMap} {found : Node} {key : Scalar}
      {type : RecordType} (read : source.at? discriminator = .ok found)
      (scalar : found.scalar? = some key) (stored : types.get? key = some type) :
      Selects source (.typeMap discriminator types) type

/-- The error of a strategy: that of a rule behind rules that do not match, with the number of the
rule, or that of reading the discriminator. -/
inductive Fails (source : Node) : Strategy → Activity → Navigation.Error → Prop where
  | rule {before after : List Rule} {rule : Rule} {cause : Navigation.Error}
      (passed : Passed source before) (failed : rule.applies source = .error cause) :
      Fails source (.rules (before ++ rule :: after)) (.evaluateRule before.length) cause
  | discriminator {discriminator : Path} {types : TypeMap} {cause : Navigation.Error}
      (unread : source.at? discriminator = .error cause) :
      Fails source (.typeMap discriminator types) .readDiscriminator cause

/-- A strategy leaves the type open: no rule matches, or the value at the discriminator is no scalar
or one that stands for no type. -/
inductive Undecided (source : Node) : Strategy → Reason → Prop where
  | rules {rules : List Rule} (passed : Passed source rules) :
      Undecided source (.rules rules) .noRuleMatched
  | noScalar {discriminator : Path} {types : TypeMap} {found : Node}
      (read : source.at? discriminator = .ok found) (none : found.scalar? = none) :
      Undecided source (.typeMap discriminator types) (.unmapped found.kindName)
  | unmapped {discriminator : Path} {types : TypeMap} {found : Node} {key : Scalar}
      (read : source.at? discriminator = .ok found) (scalar : found.scalar? = some key)
      (absent : types.get? key = none) :
      Undecided source (.typeMap discriminator types) (.unmapped key.shown)

section Choosing

variable {source : Node} {strategy : Strategy}

/-! ## The search finds it -/

/-- Rules that do not match are passed over. -/
theorem firstRule_append {before : List Rule} (h : Passed source before) (index : Nat)
    (rest : List Rule) :
    firstRule source index (before ++ rest) = firstRule source (index + before.length) rest := by
  induction before generalizing index with
  | nil => rfl
  | cons rule before ih =>
    have hrule : rule.applies source = .ok false := h rule List.mem_cons_self
    have hbefore : Passed source before := fun r hr => h r (List.mem_cons_of_mem _ hr)
    rw [List.cons_append, firstRule, hrule]
    dsimp only
    rw [ih hbefore, List.length_cons]
    congr 1
    omega

theorem choose_of_selects {type : RecordType} (h : Selects source strategy type) :
    Strategy.choose source strategy = .ok (.ok type) := by
  cases h with
  | rule passed matched => rw [Strategy.choose, firstRule_append passed, firstRule, matched]
  | mapped read scalar stored =>
    simp only [Strategy.choose, read, mapped, scalar, Option.bind_some, stored]

theorem choose_of_fails {activity : Activity} {cause : Navigation.Error}
    (h : Fails source strategy activity cause) :
    Strategy.choose source strategy = .error (.navigation activity cause) := by
  cases h with
  | rule passed failed =>
    rw [Strategy.choose, firstRule_append passed, firstRule, failed, Nat.zero_add]
  | discriminator unread => simp only [Strategy.choose, unread]

theorem choose_of_undecided {reason : Reason} (h : Undecided source strategy reason) :
    Strategy.choose source strategy = .ok (.error reason) := by
  cases h with
  | @rules rules passed =>
    have hrun := firstRule_append passed 0 []
    rw [List.append_nil] at hrun
    rw [Strategy.choose, hrun, firstRule]
  | noScalar read none =>
    simp only [Strategy.choose, read, mapped, none, Option.bind_none, shownValue]
  | unmapped read scalar absent =>
    simp only [Strategy.choose, read, mapped, scalar, Option.bind_some, absent, shownValue]

/-- All rules are passed over, or there is a first one that is not. -/
theorem passed_or_first (source : Node) (rules : List Rule) :
    Passed source rules ∨ ∃ before rule after, rules = before ++ rule :: after ∧
      Passed source before ∧ rule.applies source ≠ .ok false := by
  induction rules with
  | nil => exact .inl (by simp [Passed])
  | cons rule rest ih =>
    by_cases hrule : rule.applies source = .ok false
    · have hcons {before : List Rule} (h : Passed source before) :
          Passed source (rule :: before) := by
        intro r hr
        rcases List.mem_cons.mp hr with rfl | hr
        · exact hrule
        · exact h r hr
      rcases ih with hpassed | ⟨before, first, after, rfl, hbefore, hfirst⟩
      · exact .inl (hcons hpassed)
      · exact .inr ⟨rule :: before, first, after, rfl, hcons hbefore, hfirst⟩
    · exact .inr ⟨[], rule, rest, rfl, by simp [Passed], hrule⟩

/-- A strategy selects a type, fails or leaves the type open. -/
theorem verdict (source : Node) (strategy : Strategy) :
    (∃ type, Selects source strategy type) ∨
      (∃ activity cause, Fails source strategy activity cause) ∨
      ∃ reason, Undecided source strategy reason := by
  cases strategy with
  | rules rules =>
    rcases passed_or_first source rules with hpassed | ⟨before, rule, after, rfl, hbefore, hrule⟩
    · exact .inr (.inr ⟨_, .rules hpassed⟩)
    · cases happlies : rule.applies source with
      | error cause => exact .inr (.inl ⟨_, cause, .rule hbefore happlies⟩)
      | ok matched =>
        cases matched with
        | true => exact .inl ⟨rule.type, .rule hbefore happlies⟩
        | false => exact absurd happlies hrule
  | typeMap discriminator types =>
    cases hread : source.at? discriminator with
    | error cause => exact .inr (.inl ⟨_, cause, .discriminator hread⟩)
    | ok found =>
      cases hscalar : found.scalar? with
      | none => exact .inr (.inr ⟨_, .noScalar hread hscalar⟩)
      | some key =>
        cases hstored : types.get? key with
        | none => exact .inr (.inr ⟨_, .unmapped hread hscalar hstored⟩)
        | some type => exact .inl ⟨type, .mapped hread hscalar hstored⟩

/-- What a rule behind the first one that is not passed over would do does not matter. -/
theorem choose_append_cons {before : List Rule} {rule : Rule} (hbefore : Passed source before)
    (hrule : rule.applies source ≠ .ok false) (after more : List Rule) :
    Strategy.choose source (.rules (before ++ rule :: more)) =
      Strategy.choose source (.rules (before ++ rule :: after)) := by
  rw [Strategy.choose, Strategy.choose, firstRule_append hbefore, firstRule_append hbefore,
    firstRule, firstRule]
  cases happlies : rule.applies source with
  | error cause => rfl
  | ok matched =>
    cases matched with
    | true => rfl
    | false => exact absurd happlies hrule

end Choosing

/-! ## What the target becomes -/

section Assigning

variable {r : Resolver} {source : Node}

/-- A selected type is written into the slot; if the slot cannot be reached nothing is. -/
theorem assign_of_selects {type : RecordType} (h : Selects source r.strategy type)
    (target : Node) :
    (∃ cause, target.at? r.target = .error cause ∧
        r.assign source target = (target, .error (.navigation .assignType cause))) ∨
      ∃ written, target.setAt? r.target type.zero = .ok written ∧
        Node.LawfulWrite target r.target type.zero written ∧
        r.assign source target = (written, .ok true) := by
  have hchoose : r.choose source = .ok (.ok type) := choose_of_selects h
  cases hset : target.setAt? r.target type.zero with
  | error cause =>
    refine .inl ⟨cause, (Node.at?_error_iff type.zero).mpr hset, ?_⟩
    simp only [assign, hchoose, Node.assignTypeAt?, hset]
  | ok written =>
    refine .inr ⟨written, rfl, Node.lawfulWrite_of_setAt? hset, ?_⟩
    simp only [assign, hchoose, Node.assignTypeAt?, hset]

theorem assign_of_fails {activity : Activity} {cause : Navigation.Error}
    (h : Fails source r.strategy activity cause) (target : Node) :
    r.assign source target = (target, .error (.navigation activity cause)) := by
  have hchoose : r.choose source = .error (.navigation activity cause) := choose_of_fails h
  simp only [assign, hchoose]

theorem assign_of_undecided {reason : Reason} (h : Undecided source r.strategy reason)
    (target : Node) :
    r.assign source target =
      (target, match r.policy with
        | .strict => .error (.unresolved r.target reason)
        | .soft => .ok false) := by
  have hchoose : r.choose source = .ok (.error reason) := choose_of_undecided h
  unfold assign
  rw [hchoose]
  cases r.policy <;> rfl

/-- The policy matters only where the type is left open. -/
theorem assign_policy_irrelevant (h : ∀ reason, ¬ Undecided source r.strategy reason)
    (policy : Policy) (target : Node) :
    { r with policy := policy }.assign source target = r.assign source target := by
  rcases verdict source r.strategy with ⟨type, hs⟩ | ⟨activity, cause, hf⟩ | ⟨reason, hu⟩
  · have hchoose : r.choose source = .ok (.ok type) := choose_of_selects hs
    have hchoose' : { r with policy := policy }.choose source = .ok (.ok type) := hchoose
    simp only [assign, hchoose, hchoose']
  · rw [assign_of_fails hf]
    exact assign_of_fails (r := { r with policy := policy }) hf target
  · exact absurd hu (h reason)

end Assigning

/-- What a resolver promises for a source and a target. -/
structure Contract (r : Resolver) (source target : Node) : Prop where
  /-- either the fresh record of the selected type is written into the slot, and nothing else, or
  the target is unchanged -/
  atomic :
    (∃ type written, Selects source r.strategy type ∧
        target.setAt? r.target type.zero = .ok written ∧
        Node.LawfulWrite target r.target type.zero written ∧
        r.assign source target = (written, .ok true)) ∨
      (r.assign source target).1 = target ∧ (r.assign source target).2 ≠ .ok true
  /-- a selected type is assigned wherever the slot can be reached -/
  selected : ∀ type, Selects source r.strategy type →
    (∀ slot, target.at? r.target = .ok slot → (r.assign source target).2 = .ok true) ∧
      ∀ cause, target.at? r.target = .error cause →
        (r.assign source target).2 = .error (.navigation .assignType cause)
  /-- an error on the way to a type is the error of the resolver -/
  failed : ∀ activity cause, Fails source r.strategy activity cause →
    (r.assign source target).2 = .error (.navigation activity cause)
  /-- what is appended behind the deciding rule changes nothing -/
  appended : ∀ before rule after, r.strategy = .rules (before ++ rule :: after) →
    Passed source before → rule.applies source ≠ .ok false → ∀ more,
      { r with strategy := .rules (before ++ rule :: more) }.assign source target =
        r.assign source target
  /-- where the type is left open the policy tells what happens, and nowhere else does it matter -/
  policies :
    (∃ reason, Undecided source r.strategy reason ∧
        { r with policy := .strict }.assign source target =
          (target, .error (.unresolved r.target reason)) ∧
        { r with policy := .soft }.assign source target = (target, .ok false)) ∨
      (∀ reason, ¬ Undecided source r.strategy reason) ∧
        { r with policy := .strict }.assign source target =
          { r with policy := .soft }.assign source target

/-- **Resolution keeps its contract**, for every resolver, source and target.  The type is decided
by the first rule that matches or fails, or by the scalar at the discriminator; the target changes
in the slot or not at all; and a strict and a soft resolver differ only where no type is decided. -/
theorem assign_keeps_contract (r : Resolver) (source target : Node) :
    r.Contract source target where
  atomic := by
    rcases verdict source r.strategy with ⟨type, hs⟩ | ⟨activity, cause, hf⟩ | ⟨reason, hu⟩
    · rcases assign_of_selects hs target with ⟨cause, _, ha⟩ | ⟨written, hset, hlaw, ha⟩
      · exact .inr (by simp [ha])
      · exact .inl ⟨type, written, hs, hset, hlaw, ha⟩
    · exact .inr (by simp [assign_of_fails hf])
    · refine .inr ?_
      rw [assign_of_undecided hu]
      cases r.policy <;> simp
  selected type hs := by
    rcases assign_of_selects hs target with ⟨cause, hat, ha⟩ | ⟨written, hset, _, ha⟩
    · rw [ha, hat]
      simp
    · refine ⟨fun _ _ => by rw [ha], fun cause hat => ?_⟩
      rw [(Node.at?_error_iff type.zero).mp hat] at hset
      cases hset
  failed activity cause hf := by rw [assign_of_fails hf]
  appended before rule after hrules hbefore hrule more := by
    have hchoose : { r with strategy := .rules (before ++ rule :: more) }.choose source =
        r.choose source := by
      unfold choose
      rw [hrules]
      exact choose_append_cons hbefore hrule after more
    unfold assign
    rw [hchoose]
  policies := by
    by_cases h : ∃ reason, Undecided source r.strategy reason
    · obtain ⟨reason, hu⟩ := h
      refine .inl ⟨reason, hu, ?_, ?_⟩
      · exact assign_of_undecided (r := { r with policy := .strict }) hu target
      · exact assign_of_undecided (r := { r with policy := .soft }) hu target
    · have hnone : ∀ reason, ¬ Undecided source r.strategy reason :=
        fun reason hu => h ⟨reason, hu⟩
      refine .inr ⟨hnone, ?_⟩
      rw [assign_policy_irrelevant hnone .strict, assign_policy_irrelevant hnone .soft]

end Polydoc.Resolver
