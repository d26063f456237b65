/-
  Proofs/Schema/Naming.lean --- which type names stand in a schema, and which of them compiling looks
  up.

  Names stand in four places: the root, the kinds of fields, the rules and the type map.  Compiling
  makes every declared type, so no name of a field is overlooked, and it looks up the root and what
  the chosen strategy is made of.  A type map is looked at together with a discriminator alone.
-/
import Polydoc.Proofs.Resolver.Building
import Polydoc.Proofs.Results
import Polydoc.Proofs.Schema.Compilation

set_option autoImplicit false

namespace Polydoc.Schema

/-! ## The names in a schema -/

/-- A type name that stands somewhere in a schema. -/
inductive Names (s : Schema) : String → Prop where
  | root : Names s s.root
  | field {type other : String} (refers : s.types.Refers type other) : Names s other
  | rule {form : RuleForm} (mem : form ∈ s.resolver.rules) : Names s form.type
  | typeMap {value : Toml.Value} {type : String} (mem : (value, type) ∈ s.resolver.typeMap) :
      Names s type

/-- The schema with another type map. -/
def withTypeMap (s : Schema) (typeMap : List (Toml.Value × String)) : Schema :=
  { s with resolver := { s.resolver with typeMap := typeMap } }

/-! ## What the resolver looks up -/

section Looking

variable {built : Built} {form : ResolverForm}

theorem typeOf_eq_ok_iff {type : String} {t : RecordType} :
    typeOf built type = .ok t ↔ Entries.get? type built = some t := by
  unfold typeOf
  cases Entries.get? type built with
  | none => simp
  | some found => simp

theorem typeOf_eq_error_iff {type : String} {e : Error} :
    typeOf built type = .error e ↔ type ∉ Entries.keys built ∧ e = .unknownType type := by
  unfold typeOf
  rw [← Entries.get?_isSome_iff]
  cases Entries.get? type built with
  | none => simp [eq_comm]
  | some found => simp

theorem ruleOf_ok {rule : RuleForm} {made : Rule} (h : ruleOf built rule = .ok made) :
    Entries.get? rule.type built = some made.type := by
  unfold ruleOf at h
  obtain ⟨t, ht, hbuild⟩ := bind_eq_ok_iff.mp h
  rw [typeOf_eq_ok_iff] at ht
  unfold Resolver.buildRule at hbuild
  split at hbuild
  · cases hbuild
    exact ht
  · cases hbuild

theorem ruleOf_unknown {rule : RuleForm} {type : String}
    (h : ruleOf built rule = .error (.unknownType type)) :
    type = rule.type ∧ type ∉ Entries.keys built := by
  unfold ruleOf at h
  rcases bind_eq_error_iff.mp h with ht | ⟨t, -, hbuild⟩
  · obtain ⟨hunknown, heq⟩ := typeOf_eq_error_iff.mp ht
    cases heq
    exact ⟨rfl, hunknown⟩
  · unfold Resolver.buildRule at hbuild
    split at hbuild
    · cases hbuild
    · cases hbuild

theorem scalarOf_known {type other : String} {value : Toml.Value} :
    scalarOf type value ≠ .error (.unknownType other) := by
  unfold scalarOf
  intro h
  split at h
  · cases h
  · cases h

/-- The pairs of a type map are scalars beside the made types of the names, one for each pair. -/
theorem pairsOf_ok {typeMap : List (Toml.Value × String)} {pairs : List (Scalar × RecordType)}
    (h : pairsOf built typeMap = .ok pairs) :
    ∃ (scalars : List Scalar) (types : List RecordType), pairs = scalars.zip types ∧
      List.Forall₂ (fun (e : Toml.Value × String) t => Entries.get? e.2 built = some t)
        typeMap types := by
  unfold pairsOf at h
  obtain ⟨scalars, -, hrest⟩ := bind_eq_ok_iff.mp h
  obtain ⟨types, htypes, heq⟩ := bind_eq_ok_iff.mp hrest
  cases heq
  exact ⟨scalars, types, rfl, (mapM_eq_ok_iff.mp htypes).imp fun _ _ => typeOf_eq_ok_iff.mp⟩

theorem pairsOf_unknown {typeMap : List (Toml.Value × String)} {type : String}
    (h : pairsOf built typeMap = .error (.unknownType type)) :
    (∃ value, (value, type) ∈ typeMap) ∧ type ∉ Entries.keys built := by
  unfold pairsOf at h
  rcases bind_eq_error_iff.mp h with hscalars | ⟨scalars, -, hrest⟩
  · obtain ⟨e, -, he⟩ := exists_of_mapM_error hscalars
    exact absurd he scalarOf_known
  · rcases bind_eq_error_iff.mp hrest with htypes | ⟨types, -, hpure⟩
    · obtain ⟨⟨value, name⟩, hmem, he⟩ := exists_of_mapM_error htypes
      obtain ⟨hunknown, heq⟩ := typeOf_eq_error_iff.mp he
      cases heq
      exact ⟨⟨value, hmem⟩, hunknown⟩
    · cases hpure

/-- The strategy of a form is made of the types of its rules, without a discriminator, or of those
of its type map, with one. -/
inductive MadeOf (built : Built) (form : ResolverForm) : Resolver.StrategyPlan → Prop where
  | rules {rules : List Rule} (single : form.discriminator = none)
      (made : List.Forall₂ (fun rule made => ruleOf built rule = .ok made) form.rules rules) :
      MadeOf built form (.rules rules)
  | typeMap {discriminator : String} {pairs : List (Scalar × RecordType)}
      (given : form.discriminator = some discriminator) (single : form.rules = [])
      (made : pairsOf built form.typeMap = .ok pairs) :
      MadeOf built form (.typeMap (.text discriminator) (TypeMap.ofList pairs))

theorem madeOf_of_strategyOf {plan : Resolver.StrategyPlan} (h : strategyOf built form = .ok plan) :
    MadeOf built form plan := by
  unfold strategyOf at h
  cases hd : form.discriminator with
  | some discriminator =>
    cases hr : form.rules with
    | cons rule rest =>
      rw [hd, hr] at h
      cases h
    | nil =>
      rw [hd, hr] at h
      obtain ⟨pairs, hpairs, heq⟩ := bind_eq_ok_iff.mp h
      cases heq
      exact .typeMap hd hr hpairs
  | none =>
    cases hr : form.rules with
    | nil =>
      rw [hd, hr] at h
      cases h
    | cons rule rest =>
      rw [hd, hr] at h
      obtain ⟨rules, hrules, heq⟩ := bind_eq_ok_iff.mp h
      cases heq
      exact .rules hd (hr ▸ mapM_eq_ok_iff.mp hrules)

theorem strategyOf_unknown {type : String}
    (h : strategyOf built form = .error (.unknownType type)) :
    ((∃ rule ∈ form.rules, rule.type = type) ∨ ∃ value, (value, type) ∈ form.typeMap) ∧
      type ∉ Entries.keys built := by
  unfold strategyOf at h
  cases hd : form.discriminator with
  | some discriminator =>
    cases hr : form.rules with
    | cons rule rest =>
      rw [hd, hr] at h
      cases h
    | nil =>
      rw [hd, hr] at h
      rcases bind_eq_error_iff.mp h with hpairs | ⟨pairs, -, hpure⟩
      · obtain ⟨hmem, hunknown⟩ := pairsOf_unknown hpairs
        exact ⟨.inr hmem, hunknown⟩
      · cases hpure
  | none =>
    cases hr : form.rules with
    | nil =>
      rw [hd, hr] at h
      cases h
    | cons rule rest =>
      rw [hd, hr] at h
      rcases bind_eq_error_iff.mp h with hrules | ⟨rules, -, hpure⟩
      · obtain ⟨rule', hmem, he⟩ := exists_of_mapM_error hrules
        obtain ⟨rfl, hunknown⟩ := ruleOf_unknown he
        exact ⟨.inl ⟨rule', hmem, rfl⟩, hunknown⟩
      · cases hpure

/-- The resolver of a form is built from what its strategy is made of. -/
theorem resolverOf_ok {policy : Policy} {r : Resolver}
    (h : resolverOf built policy form = .ok r) :
    ∃ plan, MadeOf built form plan ∧
      Resolver.build ⟨.text form.target, policy, plan⟩ = .ok r := by
  unfold resolverOf at h
  obtain ⟨plan, hplan, hbuild⟩ := bind_eq_ok_iff.mp h
  refine ⟨plan, madeOf_of_strategyOf hplan, ?_⟩
  cases hb : Resolver.build ⟨.text form.target, policy, plan⟩ with
  | error e =>
    rw [hb] at hbuild
    cases hbuild
  | ok built =>
    rw [hb] at hbuild
    cases hbuild
    rfl

theorem resolverOf_unknown {policy : Policy} {type : String}
    (h : resolverOf built policy form = .error (.unknownType type)) :
    ((∃ rule ∈ form.rules, rule.type = type) ∨ ∃ value, (value, type) ∈ form.typeMap) ∧
      type ∉ Entries.keys built := by
  unfold resolverOf at h
  rcases bind_eq_error_iff.mp h with hplan | ⟨plan, -, hbuild⟩
  · exact strategyOf_unknown hplan
  · cases hb : Resolver.build ⟨.text form.target, policy, plan⟩ with
    | error e =>
      rw [hb] at hbuild
      cases hbuild
    | ok r =>
      rw [hb] at hbuild
      cases hbuild

end Looking

/-! ## Compiled schemas -/

section Compiled

variable {s : Schema} {default : Policy} {c : Compiled}

/-- A schema is compiled to its types and to the resolver that is made from them. -/
theorem compile_eq_ok_iff :
    s.compile default = .ok c ↔ s.typed = .ok (c.root, c.types) ∧
      resolverOf c.types (s.policy.getD default) s.resolver = .ok c.resolver := by
  rw [compile_eq]
  constructor
  · intro h
    cases ht : s.typed with
    | error e =>
      rw [ht] at h
      cases h
    | ok found =>
      obtain ⟨root, types⟩ := found
      rw [ht] at h
      dsimp only at h
      cases hr : resolverOf types (s.policy.getD default) s.resolver with
      | error e =>
        rw [hr] at h
        cases h
      | ok resolver =>
        rw [hr] at h
        cases h
        exact ⟨rfl, hr⟩
  · rintro ⟨ht, hr⟩
    rw [ht]
    dsimp only
    rw [hr]
    rfl

/-- A schema with a discriminator is compiled to a resolver with the pairs of its type map, at the
places that its paths lead to. -/
theorem compile_of_typeMap {root : RecordType} {types : Built} {pairs : List (Scalar × RecordType)}
    {selector : String} {place discriminator : Path} (htyped : s.typed = .ok (root, types))
    (hselector : s.resolver.discriminator = some selector) (hrules : s.resolver.rules = [])
    (hpairs : pairsOf types s.resolver.typeMap = .ok pairs)
    (htarget : (Resolver.Given.text s.resolver.target).LeadsTo .top place)
    (hdiscriminator : (Resolver.Given.text selector).LeadsTo place discriminator) :
    s.compile default = .ok ⟨root, types, ⟨place, s.policy.getD default,
      .typeMap discriminator (TypeMap.ofList pairs)⟩⟩ := by
  have hplan : strategyOf types s.resolver =
      .ok (.typeMap (.text selector) (TypeMap.ofList pairs)) := by
    unfold strategyOf
    rw [hselector, hrules]
    dsimp only
    rw [hpairs]
    rfl
  refine compile_eq_ok_iff.mpr ⟨htyped, ?_⟩
  dsimp only
  rw [resolverOf, hplan]
  exact congrArg (Except.mapError _)
    (Resolver.build_of_makes (.typeMap htarget hdiscriminator))

/-- Names that compiling looks up are declared; the type map is looked up with a discriminator. -/
theorem declared_of_compile (h : s.compile default = .ok c) {name : String} (hname : s.Names name) :
    name ∈ Entries.keys s.types ∨
      s.resolver.discriminator = none ∧ ∃ value, (value, name) ∈ s.resolver.typeMap := by
  obtain ⟨htyped, hresolver⟩ := compile_eq_ok_iff.mp h
  obtain ⟨hlisted, hroot, hall⟩ := listed_of_typed htyped
  have hmade {name : String} {t : RecordType} (ht : Entries.get? name c.types = some t) :
      name ∈ Entries.keys s.types := (hall name).mp (Entries.mem_keys_of_get? ht)
  obtain ⟨plan, hplan, -⟩ := resolverOf_ok hresolver
  cases hname with
  | root => exact .inl (hmade hroot)
  | field refers =>
    have htype := (hall _).mpr refers.mem_keys
    exact .inl ((hall name).mp (hlisted.closed htype refers))
  | rule mem =>
    cases hplan with
    | rules _ made =>
      obtain ⟨rule, -, hrule⟩ := exists_right_of_mem made mem
      exact .inl (hmade (ruleOf_ok hrule))
    | typeMap _ single _ =>
      rw [single] at mem
      cases mem
  | @typeMap value _ mem =>
    cases hplan with
    | rules single _ => exact .inr ⟨single, value, mem⟩
    | typeMap _ _ made =>
      obtain ⟨scalars, types, -, hfound⟩ := pairsOf_ok made
      obtain ⟨t, -, ht⟩ := exists_right_of_mem hfound mem
      exact .inl (hmade ht)

theorem undeclared_of_compile {name : String}
    (h : s.compile default = .error (.unknownType name)) :
    s.Names name ∧ name ∉ Entries.keys s.types := by
  rw [compile_eq] at h
  cases ht : s.typed with
  | error e =>
    rw [ht] at h
    cases h
    rcases explained_of_typed ht with ⟨cause, heq, -⟩ | ⟨heq, -⟩
    · cases heq
    · cases heq
  | ok found =>
    obtain ⟨root, types⟩ := found
    rw [ht] at h
    dsimp only at h
    obtain ⟨-, -, hall⟩ := listed_of_typed ht
    cases hr : resolverOf types (s.policy.getD default) s.resolver with
    | ok resolver =>
      rw [hr] at h
      cases h
    | error e =>
      rw [hr] at h
      cases h
      obtain ⟨hwhere, hunknown⟩ := resolverOf_unknown hr
      refine ⟨?_, fun hdeclared => hunknown ((hall name).mpr hdeclared)⟩
      rcases hwhere with ⟨rule, hmem, rfl⟩ | ⟨value, hmem⟩
      · exact .rule hmem
      · exact .typeMap hmem

/-- Without a discriminator the type map plays no part. -/
theorem compile_withTypeMap (h : s.resolver.discriminator = none)
    (typeMap : List (Toml.Value × String)) :
    (s.withTypeMap typeMap).compile default = s.compile default := by
  have hstrategy (built : Built) :
      strategyOf built (s.withTypeMap typeMap).resolver = strategyOf built s.resolver := by
    unfold strategyOf withTypeMap
    dsimp only
    rw [h]
    cases s.resolver.rules <;> rfl
  have hresolver (built : Built) (policy : Policy) :
      resolverOf built policy (s.withTypeMap typeMap).resolver =
        resolverOf built policy s.resolver := by
    unfold resolverOf
    rw [hstrategy]
    rfl
  have htyped : (s.withTypeMap typeMap).typed = s.typed := rfl
  rw [compile_eq, compile_eq, htyped]
  cases s.typed with
  | error e => rfl
  | ok found =>
    dsimp only
    rw [hresolver]
    rfl

end Compiled

/-- **No name that is looked up dangles.**  In a schema that compiles every type name is declared, as
the root, in the kind of a field, in a rule and in the type map; but a type map without a
discriminator is not looked at, and any other one would do.  A schema that does not compile since a
type is unknown names that type, and does not declare it. -/
theorem names_declared (s : Schema) (default : Policy) :
    (∀ c, s.compile default = .ok c → ∀ name, s.Names name → name ∈ Entries.keys s.types ∨
        s.resolver.discriminator = none ∧ ∃ value, (value, name) ∈ s.resolver.typeMap) ∧
      (s.resolver.discriminator = none →
        ∀ typeMap, (s.withTypeMap typeMap).compile default = s.compile default) ∧
      ∀ name, s.compile default = .error (.unknownType name) →
        s.Names name ∧ name ∉ Entries.keys s.types :=
  ⟨fun _ h _ => declared_of_compile h, compile_withTypeMap, fun _ => undeclared_of_compile⟩

/-- A type map behind a discriminator, of a declared type and of one that is not. -/
theorem names_declared_animal :
    let s (name : String) : Schema := ⟨"Animal", none, [("Animal", [("Specifics", "any")])],
      ⟨"Specifics", some "type", [(.string "animal", name)], []⟩⟩
    ((∃ c, (s "Animal").compile .strict = .ok c) ∧
        ∀ name, (s "Animal").Names name → name ∈ Entries.keys (s "Animal").types) ∧
      (s "Ghost").compile .strict = .error (.unknownType "Ghost") ∧ (s "Ghost").Names "Ghost" ∧
        "Ghost" ∉ Entries.keys (s "Ghost").types := by
  intro s
  let t : RecordType := ⟨"Animal", [("Specifics", .any)]⟩
  have htypes : typesOf (s "Animal").types = .ok [("Animal", t)] := by decide +kernel
  have htyped : (s "Animal").typed = .ok (t, [("Animal", t)]) := by
    rw [typed, htypes]
    rfl
  have htarget : (Resolver.Given.text "Specifics").LeadsTo .top (.ofNames ["Specifics"] true) :=
    Resolver.Given.leadsTo_of_bare (by decide +kernel) []
  have hselector : (Resolver.Given.text "type").LeadsTo (.ofNames ["Specifics"] true)
      (.ofNames ["Specifics", "type"] true) :=
    Resolver.Given.leadsTo_of_bare (by decide +kernel) ["Specifics"]
  have hpairs : pairsOf [("Animal", t)] (s "Animal").resolver.typeMap =
      .ok [(.string "animal", t)] := rfl
  obtain ⟨c, hc⟩ : ∃ c, (s "Animal").compile .strict = .ok c :=
    ⟨_, compile_of_typeMap htyped rfl rfl hpairs htarget hselector⟩
  have hunknown : (s "Ghost").compile .strict = .error (.unknownType "Ghost") := by
    have hghost : (s "Ghost").typed = .ok (t, [("Animal", t)]) := htyped
    rw [compile_eq, hghost]
    rfl
  refine ⟨⟨⟨c, hc⟩, fun name hname => ?_⟩, hunknown,
    (names_declared (s "Ghost") .strict).2.2 "Ghost" hunknown⟩
  rcases (names_declared (s "Animal") .strict).1 c hc name hname with hdeclared | ⟨hnone, -⟩
  · exact hdeclared
  · cases hnone

/-- A type map beside rules may name a type that is not declared. -/
theorem dangling_name :
    let animal : RuleForm := ⟨"type", .string "animal", "Animal"⟩
    let s : Schema := ⟨"Animal", none, [("Animal", [("Specifics", "any")])],
      ⟨"Specifics", none, [(.string "ghost", "Ghost")], [animal]⟩⟩
    (∃ c, s.compile .strict = .ok c) ∧ s.Names "Ghost" ∧ "Ghost" ∉ Entries.keys s.types := by
  intro animal s
  let t : RecordType := ⟨"Animal", [("Specifics", .any)]⟩
  let rule : Rule := ⟨.ofNames ["type"] true, .equals (.string "animal"), t⟩
  let r : Resolver := ⟨.ofNames ["Specifics"] true, .strict, .rules [rule]⟩
  have htypes : typesOf s.types = .ok [("Animal", t)] := by decide +kernel
  have htyped : s.typed = .ok (t, [("Animal", t)]) := by
    rw [typed, htypes]
    rfl
  have hplace : (Resolver.Given.text "type").LeadsTo .top (.ofNames ["type"] true) :=
    Resolver.Given.leadsTo_of_bare (by decide +kernel) []
  have htarget : (Resolver.Given.text "Specifics").LeadsTo .top r.target :=
    Resolver.Given.leadsTo_of_bare (by decide +kernel) []
  have hrule : ruleOf [("Animal", t)] animal = .ok rule := by
    have hbuild := ((Resolver.buildRule_decides _ rule.condition t).ok _).mpr (.mk hplace)
    exact congrArg (Except.mapError _) hbuild
  have hplan : strategyOf [("Animal", t)] s.resolver = .ok (.rules [rule]) := by
    have hrules : s.resolver.rules.mapM (ruleOf [("Animal", t)]) = .ok [rule] :=
      mapM_eq_ok_iff.mpr (.cons hrule .nil)
    exact congrArg (Except.map _) hrules
  have hresolver : resolverOf [("Animal", t)] .strict s.resolver = .ok r := by
    rw [resolverOf, hplan]
    exact congrArg (Except.mapError _) (Resolver.build_of_makes (.rules htarget))
  exact ⟨⟨⟨t, [("Animal", t)], r⟩, compile_eq_ok_iff.mpr ⟨htyped, hresolver⟩⟩,
    .typeMap List.mem_cons_self, by decide⟩

end Polydoc.Schema
