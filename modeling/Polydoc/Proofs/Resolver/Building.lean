/-
  Proofs/Resolver/Building.lean --- which plans can be built, what is built from them, and what is
  reported of the others.

  A given path leads from a place of reference to another place, or something is wrong with it; both
  are said without the order in which the builder reads, anchors and normalizes.  What is built holds
  normal paths alone, so nothing that it reads or writes later can fail for the form of a path.
-/
import Polydoc.Proofs.Path.Normal
import Polydoc.Proofs.Path.Reading
import Polydoc.Proofs.Resolver.Contract
import Polydoc.Resolver.Build
import Polydoc.Resolver.Decode

set_option autoImplicit false

namespace Polydoc.Resolver

/-! ## Given paths -/

namespace Given

/-- The path that a given one stands for. -/
def path? : Given → Except Path.ReadError Path
  | .text written => Path.read written
  | .path known => .ok known

/-- A given path leads to a place, when it starts at `reference`. -/
def LeadsTo (given : Given) (reference place : Path) : Prop :=
  ∃ p, given.path? = .ok p ∧ (p.after reference).normalize = .ok place

/-- What is wrong with a given path that starts at `reference`: its text is no path, or the path has
no normal form behind the reference. -/
inductive Wrong (role : Role) (given : Given) (reference : Path) : Fault → Prop where
  | unreadable {cause : Path.ReadError} (unread : given.path? = .error cause) :
      Wrong role given reference (.invalidPath role given.input cause)
  | misplaced {p : Path} {cause : Path.Error} (read : given.path? = .ok p)
      (unplaced : (p.after reference).normalize = .error cause) :
      Wrong role given reference (.invalidAnchor role given.input cause)

/-- A given path can be read, and is relative. -/
def Relative (given : Given) : Prop :=
  ∃ p, given.path? = .ok p ∧ p.absolute = false

/-- The given path as a known one, if its text can be read. -/
def known (given : Given) : Given :=
  match given.path? with
  | .ok p => .path p
  | .error _ => given

end Given

/-! ## Plans -/

/-- The resolver that a plan describes: the target is seen from the root, and the discriminator from
the target. -/
inductive Plan.Makes : Plan → Resolver → Prop where
  | rules {given : Given} {policy : Policy} {rules : List Rule} {place : Path}
      (target : given.LeadsTo .top place) :
      Makes ⟨given, policy, .rules rules⟩ ⟨place, policy, .rules rules⟩
  | typeMap {given selector : Given} {policy : Policy} {types : TypeMap} {place chosen : Path}
      (target : given.LeadsTo .top place) (discriminator : selector.LeadsTo place chosen) :
      Makes ⟨given, policy, .typeMap selector types⟩ ⟨place, policy, .typeMap chosen types⟩

/-- What is reported of a plan that describes no resolver: the fault of the target first, then that
of the discriminator. -/
inductive Plan.Refused : Plan → List Fault → Prop where
  | rules {given : Given} {policy : Policy} {rules : List Rule} {fault : Fault}
      (target : given.Wrong .target .top fault) :
      Refused ⟨given, policy, .rules rules⟩ [fault]
  | discriminator {given selector : Given} {policy : Policy} {types : TypeMap} {place : Path}
      {fault : Fault} (target : given.LeadsTo .top place)
      (wrong : selector.Wrong .discriminator place fault) :
      Refused ⟨given, policy, .typeMap selector types⟩ [fault]
  /-- there is no target that a relative discriminator could be seen from -/
  | unseen {given selector : Given} {policy : Policy} {types : TypeMap} {fault : Fault}
      (target : given.Wrong .target .top fault) (relative : selector.Relative) :
      Refused ⟨given, policy, .typeMap selector types⟩ [fault]
  | target {given selector : Given} {policy : Policy} {types : TypeMap} {chosen : Path}
      {fault : Fault} (target : given.Wrong .target .top fault) (absolute : ¬ selector.Relative)
      (discriminator : selector.LeadsTo .top chosen) :
      Refused ⟨given, policy, .typeMap selector types⟩ [fault]
  | both {given selector : Given} {policy : Policy} {types : TypeMap} {fault other : Fault}
      (target : given.Wrong .target .top fault) (absolute : ¬ selector.Relative)
      (wrong : selector.Wrong .discriminator .top other) :
      Refused ⟨given, policy, .typeMap selector types⟩ [fault, other]

/-! ## One path -/

section Seen

variable {given : Given} {role : Role} {reference : Path}

/-- The place that a given path leads to from `reference`, as the builder finds it. -/
def Given.seen (role : Role) (reference : Path) (given : Given) : Except Fault Path :=
  (given.read role).bind (anchored role given.input reference)

theorem read_of_path? {p : Path} (h : given.path? = .ok p) : given.read role = .ok p := by
  cases given with
  | path known => exact congrArg Except.ok (Except.ok.inj h)
  | text written =>
    have hw : Path.read written = .ok p := h
    rw [Given.read, hw]
    rfl

theorem read_of_path?_error {cause : Path.ReadError} (h : given.path? = .error cause) :
    given.read role = .error (.invalidPath role given.input cause) := by
  cases given with
  | path known => cases h
  | text written =>
    have hw : Path.read written = .error cause := h
    rw [Given.read, hw]
    rfl

theorem anchored_eq (h : reference.absolute = true) (input : String) (p : Path) :
    anchored role input reference p =
      (p.after reference).normalize.mapError (Fault.invalidAnchor role input) := by
  rw [anchored, Path.anchor_bind_normalize h]

theorem seen_of_leadsTo (h : reference.absolute = true) {place : Path}
    (hl : given.LeadsTo reference place) : given.seen role reference = .ok place := by
  obtain ⟨p, hp, hplace⟩ := hl
  have hanchored : anchored role given.input reference p = .ok place := by
    rw [anchored_eq h, hplace]
    rfl
  rw [Given.seen, read_of_path? hp]
  exact hanchored

theorem seen_of_wrong (h : reference.absolute = true) {fault : Fault}
    (hw : given.Wrong role reference fault) : given.seen role reference = .error fault := by
  cases hw with
  | unreadable unread =>
    rw [Given.seen, read_of_path?_error unread]
    rfl
  | @misplaced p cause read unplaced =>
    have hanchored : anchored role given.input reference p =
        .error (.invalidAnchor role given.input cause) := by
      rw [anchored_eq h, unplaced]
      rfl
    rw [Given.seen, read_of_path? read]
    exact hanchored

/-- A given path leads somewhere, or something is wrong with it. -/
theorem leadsTo_or_wrong (role : Role) (given : Given) (reference : Path) :
    (∃ place, given.LeadsTo reference place) ∨ ∃ fault, given.Wrong role reference fault := by
  cases hp : given.path? with
  | error cause => exact .inr ⟨_, .unreadable hp⟩
  | ok p =>
    cases hn : (p.after reference).normalize with
    | error cause => exact .inr ⟨_, .misplaced hp hn⟩
    | ok place => exact .inl ⟨place, p, hp, hn⟩

theorem Given.LeadsTo.normal {place : Path} (h : given.LeadsTo reference place) : place.Normal := by
  obtain ⟨p, _, hplace⟩ := h
  exact Path.normal_of_normalize hplace

/-- A bare name leads to the member of that name. -/
theorem Given.leadsTo_of_bare {text : String} (h : Path.BareText text.toList)
    (names : List String) :
    (Given.text text).LeadsTo (.ofNames names true) (.ofNames (names ++ [text]) true) := by
  have hplace : (Path.ofNames [text] false).after (.ofNames names true) =
      .ofNames (names ++ [text]) true := by
    simp [Path.after, Path.ofNames]
  have hnormal : (Path.ofNames (names ++ [text]) true).Normal :=
    ⟨rfl, by simp [Path.isNormalized, Path.ofNames, Element.isName]⟩
  exact ⟨_, Path.read_bare h, hplace ▸ hnormal.normalize_eq⟩

/-! The discriminator -/

theorem discriminatorAt_some (reference : Path) (given : Given) :
    discriminatorAt (some reference) given =
      (given.seen .discriminator reference).mapError some := by
  rw [discriminatorAt, Given.seen]
  cases given.read .discriminator <;> rfl

theorem discriminatorAt_relative (h : given.Relative) :
    discriminatorAt none given = .error none := by
  obtain ⟨p, hp, habsolute⟩ := h
  rw [discriminatorAt, read_of_path? hp]
  dsimp only
  rw [habsolute]

theorem discriminatorAt_none (h : ¬ given.Relative) :
    discriminatorAt none given = (given.seen .discriminator .top).mapError some := by
  rw [discriminatorAt, Given.seen]
  cases hp : given.path? with
  | error cause =>
    rw [read_of_path?_error hp]
    rfl
  | ok p =>
    rw [read_of_path? hp]
    dsimp only
    cases habsolute : p.absolute with
    | false => exact absurd ⟨p, hp, habsolute⟩ h
    | true => rfl

end Seen

/-! ## Resolvers and rules -/

section Building

variable {plan : Plan}

theorem build_of_makes {r : Resolver} (h : plan.Makes r) : build plan = .ok r := by
  cases h with
  | @rules given policy rules place target =>
    have hplace : given.fromTop .target = .ok place := seen_of_leadsTo rfl target
    simp only [build, hplace]
  | @typeMap given selector policy types place chosen target discriminator =>
    have hplace : given.fromTop .target = .ok place := seen_of_leadsTo rfl target
    have hchosen : discriminatorAt (some place) selector = .ok chosen := by
      rw [discriminatorAt_some, seen_of_leadsTo target.normal.absolute discriminator]
      rfl
    simp only [build, hplace, hchosen]

theorem build_of_refused {faults : List Fault} (h : plan.Refused faults) :
    build plan = .error ⟨faults⟩ := by
  cases h with
  | @rules given policy rules fault target =>
    have hfault : given.fromTop .target = .error fault := seen_of_wrong rfl target
    simp only [build, hfault]
  | @discriminator given selector policy types place fault target wrong =>
    have hplace : given.fromTop .target = .ok place := seen_of_leadsTo rfl target
    have hfault : discriminatorAt (some place) selector = .error (some fault) := by
      rw [discriminatorAt_some, seen_of_wrong target.normal.absolute wrong]
      rfl
    simp only [build, hplace, hfault]
    rfl
  | @unseen given selector policy types fault target relative =>
    have hfault : given.fromTop .target = .error fault := seen_of_wrong rfl target
    simp only [build, hfault, discriminatorAt_relative relative]
    rfl
  | @target given selector policy types chosen fault target absolute discriminator =>
    have hfault : given.fromTop .target = .error fault := seen_of_wrong rfl target
    have hchosen : discriminatorAt none selector = .ok chosen := by
      rw [discriminatorAt_none absolute, seen_of_leadsTo rfl discriminator]
      rfl
    simp only [build, hfault, hchosen]
  | @both given selector policy types fault other target absolute wrong =>
    have hfault : given.fromTop .target = .error fault := seen_of_wrong rfl target
    have hother : discriminatorAt none selector = .error (some other) := by
      rw [discriminatorAt_none absolute, seen_of_wrong rfl wrong]
      rfl
    simp only [build, hfault, hother]
    rfl

/-- A plan describes a resolver, or something is reported of it. -/
theorem makes_or_refused (plan : Plan) :
    (∃ r, plan.Makes r) ∨ ∃ faults, plan.Refused faults := by
  obtain ⟨given, policy, strategy⟩ := plan
  cases strategy with
  | rules rules =>
    rcases leadsTo_or_wrong .target given .top with ⟨place, target⟩ | ⟨fault, target⟩
    · exact .inl ⟨_, .rules target⟩
    · exact .inr ⟨_, .rules target⟩
  | typeMap selector types =>
    rcases leadsTo_or_wrong .target given .top with ⟨place, target⟩ | ⟨fault, target⟩
    · rcases leadsTo_or_wrong .discriminator selector place with ⟨chosen, hd⟩ | ⟨other, hd⟩
      · exact .inl ⟨_, .typeMap target hd⟩
      · exact .inr ⟨_, .discriminator target hd⟩
    · by_cases hrelative : selector.Relative
      · exact .inr ⟨_, .unseen target hrelative⟩
      · rcases leadsTo_or_wrong .discriminator selector .top with ⟨chosen, hd⟩ | ⟨other, hd⟩
        · exact .inr ⟨_, .target target hrelative hd⟩
        · exact .inr ⟨_, .both target hrelative hd⟩

end Building

/-- A builder gives exactly what is described, and otherwise reports exactly the faults that are. -/
structure Decides {α : Type} (result : Except BuildError α) (makes : α → Prop)
    (refused : List Fault → Prop) : Prop where
  ok : ∀ a, result = .ok a ↔ makes a
  error : ∀ e, result = .error e ↔ refused e.faults

theorem Decides.of_cases {α : Type} {result : Except BuildError α} {makes : α → Prop}
    {refused : List Fault → Prop} (hmakes : ∀ a, makes a → result = .ok a)
    (hrefused : ∀ faults, refused faults → result = .error ⟨faults⟩)
    (total : (∃ a, makes a) ∨ ∃ faults, refused faults) : Decides result makes refused := by
  constructor
  · intro a
    refine ⟨fun h => ?_, hmakes a⟩
    rcases total with ⟨b, hb⟩ | ⟨faults, hf⟩
    · rw [hmakes b hb] at h
      cases h
      exact hb
    · rw [hrefused faults hf] at h
      cases h
  · intro e
    refine ⟨fun h => ?_, hrefused e.faults⟩
    rcases total with ⟨b, hb⟩ | ⟨faults, hf⟩
    · rw [hmakes b hb] at h
      cases h
    · rw [hrefused faults hf] at h
      cases h
      exact hf

theorem build_decides (plan : Plan) : Decides (build plan) plan.Makes plan.Refused :=
  .of_cases (fun _ => build_of_makes) (fun _ => build_of_refused) (makes_or_refused plan)

/-- The rule that tests what stands at a given path, seen from the root. -/
inductive Given.MakesRule (given : Given) (condition : Condition) (type : RecordType) :
    Rule → Prop where
  | mk {place : Path} (value : given.LeadsTo .top place) :
      MakesRule given condition type ⟨place, condition, type⟩

/-- What is reported of a rule whose path is wrong. -/
inductive Given.RefusedRule (given : Given) : List Fault → Prop where
  | mk {fault : Fault} (value : given.Wrong .ruleValue .top fault) : RefusedRule given [fault]

theorem buildRule_decides (given : Given) (condition : Condition) (type : RecordType) :
    Decides (buildRule given condition type) (given.MakesRule condition type)
      given.RefusedRule := by
  refine .of_cases ?_ ?_ ?_
  · rintro _ ⟨value⟩
    have hplace : given.fromTop .ruleValue = .ok _ := seen_of_leadsTo rfl value
    simp only [buildRule, hplace]
  · rintro _ ⟨value⟩
    have hfault : given.fromTop .ruleValue = .error _ := seen_of_wrong rfl value
    simp only [buildRule, hfault]
  · rcases leadsTo_or_wrong .ruleValue given .top with ⟨place, value⟩ | ⟨fault, value⟩
    · exact .inl ⟨_, .mk value⟩
    · exact .inr ⟨_, .mk value⟩

/-! ## What is reported -/

theorem Plan.Refused.ne_nil {plan : Plan} {faults : List Fault} (h : plan.Refused faults) :
    faults ≠ [] := by
  cases h <;> exact List.cons_ne_nil _ _

/-- Whatever is wrong with an absolute or unreadable path is wrong with it from everywhere. -/
theorem Given.Wrong.elsewhere {given : Given} {role : Role} {reference : Path} {fault : Fault}
    (h : given.Wrong role reference fault) (hr : ¬ given.Relative) (other : Path) :
    given.Wrong role other fault := by
  cases h with
  | unreadable unread => exact .unreadable unread
  | @misplaced p cause read unplaced =>
    refine .misplaced read ?_
    cases habsolute : p.absolute with
    | false => exact absurd ⟨p, read, habsolute⟩ hr
    | true =>
      rw [Path.after, if_pos habsolute] at unplaced ⊢
      exact unplaced

/-- A fault of the discriminator is left out only if there is no target and the discriminator is
relative. -/
theorem Plan.Refused.listed {given selector : Given} {policy : Policy} {types : TypeMap}
    {faults : List Fault} (h : Plan.Refused ⟨given, policy, .typeMap selector types⟩ faults)
    {reference : Path} (hr : ∀ place, given.LeadsTo .top place → place = reference) {fault : Fault}
    (hf : selector.Wrong .discriminator reference fault) :
    fault ∈ faults ∨ (¬ ∃ place, given.LeadsTo .top place) ∧ selector.Relative := by
  -- the same path is not both wrong and right, nor wrong in two ways
  have hseen {reference : Path} (ha : reference.absolute = true) {fault : Fault}
      (hf : selector.Wrong .discriminator reference fault) :
      selector.seen .discriminator reference = .error fault := seen_of_wrong ha hf
  cases h with
  | @discriminator _ _ _ _ place other target wrong =>
    have hplace : place = reference := hr place target
    subst hplace
    have heq := hseen target.normal.absolute hf
    rw [hseen target.normal.absolute wrong] at heq
    cases heq
    exact .inl List.mem_cons_self
  | unseen target relative =>
    refine .inr ⟨?_, relative⟩
    rintro ⟨place, hplace⟩
    have hright : given.seen .target .top = .ok place := seen_of_leadsTo rfl hplace
    rw [seen_of_wrong rfl target] at hright
    cases hright
  | target target absolute discriminator =>
    have hright : selector.seen .discriminator .top = .ok _ := seen_of_leadsTo rfl discriminator
    rw [hseen rfl (hf.elsewhere absolute .top)] at hright
    cases hright
  | both target absolute wrong =>
    have heq := hseen rfl (hf.elsewhere absolute .top)
    rw [hseen rfl wrong] at heq
    cases heq
    exact .inl (List.mem_cons_of_mem _ List.mem_cons_self)

/-! ## Texts and known paths -/

/-- A fault without what was given. -/
def Fault.anonymous : Fault → Fault
  | .invalidPath role _ cause => .invalidPath role "" cause
  | .invalidAnchor role _ cause => .invalidAnchor role "" cause

/-- Two results are the same, up to the given paths that are repeated in errors. -/
def SameButInputs {α : Type} : Except BuildError α → Except BuildError α → Prop
  | .ok a, .ok b => a = b
  | .error e, .error f => e.faults.map Fault.anonymous = f.faults.map Fault.anonymous
  | _, _ => False

/-- Two ways of giving the same plan: the paths given stand for the same paths. -/
inductive Plan.Alike : Plan → Plan → Prop where
  | rules {given other : Given} {policy : Policy} {rules : List Rule}
      (target : given.path? = other.path?) :
      Alike ⟨given, policy, .rules rules⟩ ⟨other, policy, .rules rules⟩
  | typeMap {given other selector chooser : Given} {policy : Policy} {types : TypeMap}
      (target : given.path? = other.path?) (discriminator : selector.path? = chooser.path?) :
      Alike ⟨given, policy, .typeMap selector types⟩ ⟨other, policy, .typeMap chooser types⟩

section Alike

variable {given other : Given} {reference : Path}

theorem Given.LeadsTo.congr {place : Path} (h : given.LeadsTo reference place)
    (heq : given.path? = other.path?) : other.LeadsTo reference place := by
  obtain ⟨p, hp, hplace⟩ := h
  exact ⟨p, heq ▸ hp, hplace⟩

theorem Given.Wrong.congr {role : Role} {fault : Fault} (h : given.Wrong role reference fault)
    (heq : given.path? = other.path?) :
    ∃ same, other.Wrong role reference same ∧ fault.anonymous = same.anonymous := by
  cases h with
  | unreadable unread => exact ⟨_, .unreadable (heq ▸ unread), rfl⟩
  | misplaced read unplaced => exact ⟨_, .misplaced (heq ▸ read) unplaced, rfl⟩

theorem Given.relative_congr (heq : given.path? = other.path?) :
    given.Relative ↔ other.Relative := by
  unfold Given.Relative
  rw [heq]

theorem build_alike {plan same : Plan} (h : plan.Alike same) :
    SameButInputs (build plan) (build same) := by
  rcases makes_or_refused plan with ⟨r, hr⟩ | ⟨faults, hf⟩
  · have hsame : same.Makes r := by
      cases h with
      | rules htarget =>
        cases hr with
        | rules target => exact .rules (target.congr htarget)
      | typeMap htarget hselector =>
        cases hr with
        | typeMap target discriminator =>
          exact .typeMap (target.congr htarget) (discriminator.congr hselector)
    rw [build_of_makes hr, build_of_makes hsame]
    rfl
  · have hsame : ∃ others, same.Refused others ∧
        faults.map Fault.anonymous = others.map Fault.anonymous := by
      cases h with
      | rules htarget =>
        cases hf with
        | rules target =>
          obtain ⟨f, hw, heq⟩ := target.congr htarget
          exact ⟨_, .rules hw, by simp [heq]⟩
      | typeMap htarget hselector =>
        cases hf with
        | discriminator target wrong =>
          obtain ⟨f, hw, heq⟩ := wrong.congr hselector
          exact ⟨_, .discriminator (target.congr htarget) hw, by simp [heq]⟩
        | unseen target relative =>
          obtain ⟨f, hw, heq⟩ := target.congr htarget
          exact ⟨_, .unseen hw ((Given.relative_congr hselector).mp relative), by simp [heq]⟩
        | target target absolute discriminator =>
          obtain ⟨f, hw, heq⟩ := target.congr htarget
          exact ⟨_, .target hw (mt (Given.relative_congr hselector).mpr absolute)
            (discriminator.congr hselector), by simp [heq]⟩
        | both target absolute wrong =>
          obtain ⟨f, hw, heq⟩ := target.congr htarget
          obtain ⟨g, hw', heq'⟩ := wrong.congr hselector
          exact ⟨_, .both hw (mt (Given.relative_congr hselector).mpr absolute) hw',
            by simp [heq, heq']⟩
    obtain ⟨others, hothers, heq⟩ := hsame
    rw [build_of_refused hf, build_of_refused hothers]
    exact heq

theorem buildRule_alike (heq : given.path? = other.path?) (condition : Condition)
    (type : RecordType) :
    SameButInputs (buildRule given condition type) (buildRule other condition type) := by
  have hgiven := buildRule_decides given condition type
  have hother := buildRule_decides other condition type
  rcases leadsTo_or_wrong .ruleValue given .top with ⟨place, value⟩ | ⟨fault, value⟩
  · rw [(hgiven.ok _).mpr (.mk value), (hother.ok _).mpr (.mk (value.congr heq))]
    rfl
  · obtain ⟨same, hw, hsame⟩ := value.congr heq
    rw [(hgiven.error ⟨[fault]⟩).mpr (.mk value), (hother.error ⟨[same]⟩).mpr (.mk hw)]
    exact congrArg (fun f => [f]) hsame

end Alike

/-! ## Normal resolvers -/

/-- All paths that a resolver holds are normal. -/
structure Normal (r : Resolver) : Prop where
  target : r.target.Normal
  rules : ∀ rules, r.strategy = .rules rules → ∀ rule ∈ rules, rule.place.Normal
  discriminator : ∀ place types, r.strategy = .typeMap place types → place.Normal

/-- A resolver failed for the form of one of its paths. -/
def Error.Unnormalized : Error → Prop
  | .navigation _ cause => cause.obstacle = .unnormalizedPath
  | .unresolved _ _ => False

/-- The rules of a plan, if it has any, were built. -/
def StrategyPlan.Built : StrategyPlan → Prop
  | .rules tried => ∀ rule ∈ tried, ∃ given condition type,
      buildRule given condition type = .ok rule
  | .typeMap _ _ => True

section Normal

variable {r : Resolver} {source : Node}

theorem Given.MakesRule.normal {given : Given} {condition : Condition} {type : RecordType}
    {rule : Rule} (h : given.MakesRule condition type rule) : rule.place.Normal := by
  cases h with
  | mk value => exact value.normal

theorem Plan.Makes.target_normal {plan : Plan} (h : plan.Makes r) : r.target.Normal := by
  cases h with
  | rules target => exact target.normal
  | typeMap target _ => exact target.normal

theorem Plan.Makes.normal {plan : Plan} (h : plan.Makes r) (hb : plan.strategy.Built) :
    r.Normal := by
  refine ⟨h.target_normal, ?_, ?_⟩
  · intro rules hrules rule hrule
    cases h with
    | rules target =>
      cases hrules
      obtain ⟨given, condition, type, hbuilt⟩ := hb rule hrule
      exact (((buildRule_decides given condition type).ok rule).mp hbuilt).normal
    | typeMap _ _ => cases hrules
  · intro place types hplace
    cases h with
    | rules _ => cases hplace
    | typeMap _ discriminator =>
      cases hplace
      exact discriminator.normal

theorem Normal.of_fails (h : r.Normal) {activity : Activity} {cause : Navigation.Error}
    (hf : Fails source r.strategy activity cause) : cause.obstacle ≠ .unnormalizedPath := by
  generalize hs : r.strategy = strategy at hf
  cases hf with
  | @rule before after rule cause passed failed =>
    have hplace : rule.place.Normal := h.rules _ hs rule (by simp)
    rw [Rule.applies] at failed
    cases hread : source.at? rule.place with
    | ok found =>
      rw [hread] at failed
      cases failed
    | error e =>
      rw [hread] at failed
      cases failed
      exact Node.at?_normal hplace hread
  | discriminator unread => exact Node.at?_normal (h.discriminator _ _ hs) unread

/-- A resolver with normal paths never fails for the form of a path. -/
theorem Normal.assign_error (h : r.Normal) {target : Node} {e : Error}
    (he : (r.assign source target).2 = .error e) : ¬ e.Unnormalized := by
  rcases verdict source r.strategy with ⟨type, hs⟩ | ⟨activity, cause, hf⟩ | ⟨reason, hu⟩
  · rcases assign_of_selects hs target with ⟨cause, hread, ha⟩ | ⟨_, _, _, ha⟩
    · rw [ha] at he
      cases he
      exact Node.at?_normal h.target hread
    · rw [ha] at he
      cases he
  · rw [assign_of_fails hf] at he
    cases he
    exact h.of_fails hf
  · rw [assign_of_undecided hu] at he
    cases hp : r.policy with
    | strict =>
      rw [hp] at he
      cases he
      exact id
    | soft =>
      rw [hp] at he
      cases he

theorem Normal.decode_error (h : r.Normal) {target : Node} {e : Error}
    (he : (r.decode source target).2 = .error (.resolve e)) : ¬ e.Unnormalized := by
  unfold decode at he
  cases ha : r.assign source target with
  | mk written result =>
    rw [ha] at he
    cases result with
    | error cause =>
      cases he
      exact h.assign_error (congrArg Prod.snd ha)
    | ok applied =>
      dsimp only at he
      split at he <;> cases he

end Normal

/-! ## The contract of the builders -/

/-- What is promised of building a rule. -/
structure RuleContract (given : Given) (condition : Condition) (type : RecordType) : Prop where
  /-- the rule is built if its path leads somewhere from the root, else the path is reported -/
  decides : Decides (buildRule given condition type) (given.MakesRule condition type)
    given.RefusedRule
  /-- the rule tests a normal path -/
  normal : ∀ rule, buildRule given condition type = .ok rule → rule.place.Normal
  /-- texts and known paths are treated alike -/
  alike : ∀ other : Given, given.path? = other.path? →
    SameButInputs (buildRule given condition type) (buildRule other condition type)

/-- What is promised of building a resolver. -/
structure BuildContract (plan : Plan) : Prop where
  /-- the resolver is built if its paths lead somewhere, the target from the root and the
  discriminator from the target; else they are reported, the target first -/
  decides : Decides (build plan) plan.Makes plan.Refused
  /-- there is no error without a fault -/
  faults : ∀ e, build plan = .error e → e.faults ≠ []
  /-- a fault of the discriminator, seen from the target if there is one, is left out only if there
  is none and the discriminator is relative -/
  listed : ∀ e selector types, build plan = .error e → plan.strategy = .typeMap selector types →
    ∀ reference, (∀ place, plan.target.LeadsTo .top place → place = reference) →
      ∀ fault, selector.Wrong .discriminator reference fault →
        fault ∈ e.faults ∨ (¬ ∃ place, plan.target.LeadsTo .top place) ∧ selector.Relative
  /-- a resolver holds normal paths, as far as its rules were built -/
  normal : ∀ r, build plan = .ok r → r.target.Normal ∧ (plan.strategy.Built → r.Normal)
  /-- texts and known paths are treated alike -/
  alike : ∀ other, plan.Alike other → SameButInputs (build plan) (build other)
  /-- no document makes a resolver fail for the form of a path, if its rules were built -/
  usable : ∀ r, build plan = .ok r → plan.strategy.Built → ∀ source target e,
    ((r.assign source target).2 = .error e → ¬ e.Unnormalized) ∧
      ((r.decode source target).2 = .error (.resolve e) → ¬ e.Unnormalized)

/-- **Builders keep their contract**, for every plan and for every given path of a rule.  Whatever
is built holds absolute paths of names alone, and no source and no target makes it stop at an
element that should have been normalized away. -/
theorem build_keeps_contract :
    (∀ plan, BuildContract plan) ∧
      ∀ given condition type, RuleContract given condition type := by
  constructor
  · intro plan
    have hdecides := build_decides plan
    refine ⟨hdecides, ?_, ?_, ?_, fun other => build_alike, ?_⟩
    · intro e he
      exact ((hdecides.error e).mp he).ne_nil
    · intro e selector types he hs reference hr fault hf
      obtain ⟨given, policy, strategy⟩ := plan
      cases hs
      exact ((hdecides.error e).mp he).listed hr hf
    · intro r hr
      have hmakes := (hdecides.ok r).mp hr
      exact ⟨hmakes.target_normal, hmakes.normal⟩
    · intro r hr hb source target e
      have hnormal := ((hdecides.ok r).mp hr).normal hb
      exact ⟨hnormal.assign_error, hnormal.decode_error⟩
  · intro given condition type
    have hdecides := buildRule_decides given condition type
    refine ⟨hdecides, ?_, fun other heq => buildRule_alike heq condition type⟩
    intro rule hrule
    exact ((hdecides.ok rule).mp hrule).normal

/-- A target and a discriminator with `..` in them are built into normal paths.  The same
discriminator is not looked at where the target leads out of the root, and an absolute one that leads
out of it too is reported behind the target. -/
theorem build_keeps_contract_payload :
    let up : Given := .path ⟨[.parent, .name "type"], false⟩
    let payload : Given := .path ⟨[.name "a", .parent, .self, .name "payload"], true⟩
    let plan (target selector : Given) : Plan := ⟨target, .strict, .typeMap selector ⟨[]⟩⟩
    let built : Resolver :=
      ⟨.ofNames ["payload"] true, .strict, .typeMap (.ofNames ["type"] true) ⟨[]⟩⟩
    let out : Given := .path ⟨[.parent, .root], true⟩
    let fault (role : Role) : Fault := .invalidAnchor role "/../" (.escapesRoot 0)
    build (plan payload up) = .ok built ∧ built.Normal ∧
      build (plan out up) = .error ⟨[fault .target]⟩ ∧
      build (plan out out) = .error ⟨[fault .target, fault .discriminator]⟩ := by
  intro up payload plan built out fault
  have hbuilt : build (plan payload up) = .ok built := rfl
  have hcontract := build_keeps_contract.1 (plan payload up)
  exact ⟨hbuilt, (hcontract.normal built hbuilt).2 trivial, rfl, rfl⟩

end Polydoc.Resolver
