/-
  Proofs/Command/Status.lean --- the exit code of a run, told from what the run comes to.

  A run fails with 2 where everything can be read and decoding stops because no type could be chosen
  under a strict policy; that of the schema goes before the one among the arguments, and that before
  the one in the settings.  Arguments that are no command fail with 2 as well.  Every other failure
  has 1, and a run that does what it is asked to has 0.
-/
import Polydoc.Command.Run
import Polydoc.Proofs.Decode.Steps
import Polydoc.Proofs.Schema.Naming

set_option autoImplicit false

namespace Polydoc

/-! ## The policy that goes -/

namespace Resolver

theorem policy_of_build {plan : Plan} {r : Resolver} (h : build plan = .ok r) :
    r.policy = plan.policy := by
  cases ((build_decides plan).ok r).mp h with
  | rules _ => rfl
  | typeMap _ _ => rfl

/-- Decoding stops for want of a type exactly if the type is left open and the policy is strict. -/
theorem decode_unresolved_iff {r : Resolver} {source target : Node} :
    (∃ place reason, (r.decode source target).2 = .error (.resolve (.unresolved place reason))) ↔
      r.policy = .strict ∧ ∃ reason, Undecided source r.strategy reason := by
  -- an assignment that does not fail is followed by the decoder, which has errors of its own
  have hassigned {assigned : Node} {applied : Bool}
      (ha : r.assign source target = (assigned, .ok applied)) :
      ∀ place reason,
        (r.decode source target).2 ≠ .error (.resolve (.unresolved place reason)) := by
    intro place reason h
    rw [decode_of_assign ha] at h
    cases hd : (decodeInto source assigned).2 with
    | ok _ =>
      rw [hd] at h
      cases h
    | error e =>
      rw [hd] at h
      cases h
  have hfailed {e : Error} (ha : r.assign source target = (target, .error e)) :
      (r.decode source target).2 = .error (.resolve e) := by
    rw [decode, ha]
  rcases verdict source r.strategy with ⟨type, hs⟩ | ⟨activity, cause, hf⟩ | ⟨reason, hu⟩
  · have hopen : ∀ reason, ¬ Undecided source r.strategy reason := by
      intro reason hu
      have hchoose := choose_of_selects hs
      rw [choose_of_undecided hu] at hchoose
      cases hchoose
    constructor
    · rintro ⟨place, reason, h⟩
      rcases assign_of_selects hs target with ⟨cause, _, ha⟩ | ⟨written, _, _, ha⟩
      · rw [hfailed ha] at h
        cases h
      · exact absurd h (hassigned ha place reason)
    · rintro ⟨_, reason, hu⟩
      exact absurd hu (hopen reason)
  · constructor
    · rintro ⟨place, reason, h⟩
      rw [hfailed (assign_of_fails hf target)] at h
      cases h
    · rintro ⟨_, reason, hu⟩
      have hchoose := choose_of_fails hf
      rw [choose_of_undecided hu] at hchoose
      cases hchoose
  · have ha := assign_of_undecided hu target
    cases hpolicy : r.policy with
    | strict =>
      rw [hpolicy] at ha
      exact ⟨fun _ => ⟨rfl, reason, hu⟩, fun _ => ⟨_, _, hfailed ha⟩⟩
    | soft =>
      rw [hpolicy] at ha
      refine ⟨fun ⟨place, reason, h⟩ => absurd h (hassigned ha place reason), fun ⟨h, _⟩ => ?_⟩
      cases h

end Resolver

theorem Schema.policy_of_compile {s : Schema} {default : Policy} {c : Schema.Compiled}
    (h : s.compile default = .ok c) : c.resolver.policy = s.policy.getD default := by
  obtain ⟨plan, _, hbuild⟩ := resolverOf_ok (compile_eq_ok_iff.mp h).2
  exact Resolver.policy_of_build hbuild

namespace Command

/-! ## What a run comes to -/

/-- The arguments ask for a document to be decoded, and all that this takes can be read: the schema,
which compiles, and the document.  The policy is that of the schema, else the one among the
arguments, else the one in the settings. -/
inductive Loads (s : Surroundings) (arguments : List String) :
    Policy → Schema.Compiled → Node → Prop where
  | decode {file : Option String} {schemaFile : String} {flag : Option Policy} {compact : Bool}
      {schema : Schema} {compiled : Schema.Compiled} {source : Node}
      (asked : ofArguments arguments = .ok (.decode file schemaFile flag compact))
      (read : schemaAt s schemaFile = .ok schema)
      (compiles : schema.compile (flag.getD (Settings.read s.settings).policy) = .ok compiled)
      (loads : documentAt s file = .ok source) :
      Loads s arguments ((schema.policy.or flag).getD (Settings.read s.settings).policy) compiled
        source

/-- A run that is to decode a document leaves the type open under a policy: whatever the resolver
looks at is there, and no type is found. -/
def LeftOpen (s : Surroundings) (arguments : List String) (policy : Policy) : Prop :=
  ∃ compiled source reason, Loads s arguments policy compiled source ∧
    Resolver.Undecided source compiled.resolver.strategy reason

/-- The arguments are no command, and do not ask for help or for the version either. -/
def Misused (arguments : List String) : Prop :=
  ofArguments arguments = .error .wrong

/-- A run that does what it is asked to. -/
inductive Succeeds (s : Surroundings) (arguments : List String) : Prop where
  | help {topic : Topic} (asked : ofArguments arguments = .error (.help topic))
  | version (asked : ofArguments arguments = .error .version)
  | path {text : String} {base : Option String} {p : Path}
      (asked : ofArguments arguments = .ok (.path text base))
      (canonical : canonical text base = .ok p)
  | decode {policy : Policy} {compiled : Schema.Compiled} {source : Node} {applied : Bool}
      (loads : Loads s arguments policy compiled source)
      (decodes : (compiled.resolver.decode source compiled.target).2 = .ok applied)

theorem Loads.policy_eq {s : Surroundings} {arguments : List String} {policy : Policy}
    {compiled : Schema.Compiled} {source : Node} (h : Loads s arguments policy compiled source) :
    compiled.resolver.policy = policy := by
  cases h with
  | @decode file schemaFile flag compact schema _ _ asked read compiles loads =>
    rw [Schema.policy_of_compile compiles]
    cases schema.policy with
    | none => rfl
    | some policy => rfl

/-! ## Failures -/

/-- A failure says that no type could be chosen. -/
def Failure.Unresolved (f : Failure) : Prop :=
  ∃ place reason, f = .decode (.resolve (.unresolved place reason))

theorem Failure.status_of_unresolved {f : Failure} (h : f.Unresolved) : f.status = 2 := by
  obtain ⟨place, reason, rfl⟩ := h
  rfl

theorem Failure.status_of_not_unresolved {f : Failure} (h : ¬ f.Unresolved) : f.status = 1 := by
  unfold status
  split
  · rename_i cause
    refine if_neg fun hu => h ?_
    unfold Resolver.Failure.isUnresolved at hu
    split at hu
    · exact ⟨_, _, rfl⟩
    · cases hu
  · rfl

/-- What is reported under a heading other than decoding is no want of a type. -/
theorem not_unresolved_of_mapError {ε α : Type} {x : Except ε α} {heading : ε → Failure}
    {f : Failure} (hheading : ∀ e, ¬ (heading e).Unresolved) (h : x.mapError heading = .error f) :
    ¬ f.Unresolved := by
  cases x with
  | ok _ => cases h
  | error e =>
    cases h
    exact hheading e

theorem canonical_not_unresolved {text : String} {base : Option String} {f : Failure}
    (h : canonical text base = .error f) : ¬ f.Unresolved := by
  have hpath (e : Path.ReadError) : ¬ (Failure.path e).Unresolved := fun ⟨_, _, h⟩ => by cases h
  have hbase (e : Path.ReadError) : ¬ (Failure.base e).Unresolved := fun ⟨_, _, h⟩ => by cases h
  have hanchor (e : Path.Error) : ¬ (Failure.anchor e).Unresolved := fun ⟨_, _, h⟩ => by cases h
  have hnormal {p : Path}
      (h : (if p.absolute then p.normalize.mapError Failure.anchor else pure p) = .error f) :
      ¬ f.Unresolved := by
    split at h
    · exact not_unresolved_of_mapError hanchor h
    · cases h
  rcases bind_eq_error_iff.mp h with h | ⟨p, -, h⟩
  · exact not_unresolved_of_mapError hpath h
  · cases base with
    | none => exact hnormal h
    | some base =>
      rcases bind_eq_error_iff.mp h with h | ⟨b, -, h⟩
      · exact not_unresolved_of_mapError hbase h
      · rcases bind_eq_error_iff.mp h with h | ⟨anchored, -, h⟩
        · exact not_unresolved_of_mapError hanchor h
        · exact hnormal h

theorem schemaAt_not_unresolved {s : Surroundings} {file : String} {f : Failure}
    (h : schemaAt s file = .error f) : ¬ f.Unresolved := by
  rintro ⟨place, reason, rfl⟩
  unfold schemaAt at h
  split at h
  · cases h
  · split at h
    · cases h
    · rename_i text _
      cases hread : Schema.read? text with
      | none =>
        rw [hread] at h
        cases h
      | some schema =>
        rw [hread] at h
        cases h

theorem documentAt_not_unresolved {s : Surroundings} {file : Option String} {f : Failure}
    (h : documentAt s file = .error f) : ¬ f.Unresolved := by
  have hdocument (e : Document.Error) : ¬ (Failure.document e).Unresolved :=
    fun ⟨_, _, h⟩ => by cases h
  unfold documentAt at h
  split at h
  · exact not_unresolved_of_mapError hdocument h
  · exact not_unresolved_of_mapError hdocument h
  · rintro ⟨_, _, rfl⟩
    cases h

/-! ## Decoding -/

section Decoding

variable {s : Surroundings} {file : Option String} {schemaFile : String} {policy : Policy}

theorem decoded_of_loaded {schema : Schema} {compiled : Schema.Compiled} {source : Node}
    (read : schemaAt s schemaFile = .ok schema) (compiles : schema.compile policy = .ok compiled)
    (loads : documentAt s file = .ok source) :
    decoded s file schemaFile policy =
      ((compiled.resolver.decode source compiled.target).2.mapError Failure.decode).map
        fun _ => (compiled.resolver.decode source compiled.target).1 := by
  have hcompiles : (schema.compile policy).mapError Failure.schema = .ok compiled := by
    rw [compiles]
    rfl
  rw [decoded, read]
  change ((schema.compile policy).mapError Failure.schema >>= _) = _
  rw [hcompiles]
  change (documentAt s file >>= _) = _
  rw [loads]
  change (pure source >>= _) = _
  rw [pure_bind]
  rcases compiled.resolver.decode source compiled.target with ⟨target, _ | _⟩
  · rfl
  · rfl

/-- What is decoded needs everything it is read from; a failure to read is none to decode. -/
theorem decoded_cases (s : Surroundings) (file : Option String) (schemaFile : String)
    (policy : Policy) :
    (∃ schema compiled source, schemaAt s schemaFile = .ok schema ∧
      schema.compile policy = .ok compiled ∧ documentAt s file = .ok source) ∨
    ∃ f, decoded s file schemaFile policy = .error f ∧ ¬ f.Unresolved := by
  cases hread : schemaAt s schemaFile with
  | error f =>
    exact .inr ⟨f, bind_eq_error_iff.mpr (.inl hread), schemaAt_not_unresolved hread⟩
  | ok schema =>
    cases hcompiles : schema.compile policy with
    | error e =>
      refine .inr ⟨.schema e, bind_eq_error_iff.mpr (.inr ⟨schema, hread, ?_⟩), ?_⟩
      · refine bind_eq_error_iff.mpr (.inl ?_)
        rw [hcompiles]
        rfl
      · rintro ⟨place, reason, h⟩
        cases h
    | ok compiled =>
      cases hloads : documentAt s file with
      | error f =>
        refine .inr ⟨f, bind_eq_error_iff.mpr (.inr ⟨schema, hread, ?_⟩),
          documentAt_not_unresolved hloads⟩
        refine bind_eq_error_iff.mpr (.inr ⟨compiled, ?_, bind_eq_error_iff.mpr (.inl hloads)⟩)
        rw [hcompiles]
        rfl
      | ok source => exact .inl ⟨schema, compiled, source, rfl, hcompiles, rfl⟩

end Decoding

/-! ## Runs -/

section Runs

variable {s : Surroundings} {arguments : List String}

/-- Where everything can be read, a run to decode fails for want of a type exactly if the type is
left open under a strict policy, and does what it is asked to exactly if decoding does. -/
theorem run_of_loads {policy : Policy} {compiled : Schema.Compiled} {source : Node}
    (h : Loads s arguments policy compiled source) :
    (∃ applied, (compiled.resolver.decode source compiled.target).2 = .ok applied ∧
      (run s arguments).status = 0) ∨
    ∃ cause, (compiled.resolver.decode source compiled.target).2 = .error cause ∧
      (run s arguments).status = (Failure.decode cause).status := by
  cases h with
  | @decode file schemaFile flag compact schema _ _ asked read compiles loads =>
    have hdecoded := decoded_of_loaded read compiles loads
    unfold run
    rw [asked]
    dsimp only [output]
    rw [hdecoded]
    cases hd : (compiled.resolver.decode source compiled.target).2 with
    | ok applied =>
      exact .inl ⟨applied, rfl, rfl⟩
    | error cause =>
      exact .inr ⟨cause, rfl, rfl⟩

theorem status_of_succeeds (h : Succeeds s arguments) : (run s arguments).status = 0 := by
  cases h with
  | help asked => rw [run, asked]; rfl
  | version asked => rw [run, asked]; rfl
  | path asked canonical =>
    unfold run
    rw [asked]
    dsimp only [output]
    rw [canonical]
    rfl
  | decode loads decodes =>
    rcases run_of_loads loads with ⟨_, _, hstatus⟩ | ⟨cause, hcause, _⟩
    · exact hstatus
    · rw [decodes] at hcause
      cases hcause

theorem status_of_misused (h : Misused arguments) : (run s arguments).status = 2 := by
  rw [run, show ofArguments arguments = _ from h]
  rfl

theorem status_of_leftOpen (h : LeftOpen s arguments .strict) : (run s arguments).status = 2 := by
  obtain ⟨compiled, source, reason, hloads, hopen⟩ := h
  obtain ⟨place, said, hdecode⟩ :
      ∃ place said, (compiled.resolver.decode source compiled.target).2 =
        .error (.resolve (.unresolved place said)) :=
    Resolver.decode_unresolved_iff.mpr ⟨hloads.policy_eq, reason, hopen⟩
  rcases run_of_loads hloads with ⟨_, happlied, _⟩ | ⟨cause, hcause, hstatus⟩
  · rw [hdecode] at happlied
    cases happlied
  · rw [hdecode] at hcause
    cases hcause
    exact hstatus.trans (Failure.status_of_unresolved ⟨place, said, rfl⟩)

/-- A run to decode succeeds, leaves the type open under a strict policy, or fails with 1. -/
theorem decode_verdict {file : Option String} {schemaFile : String} {flag : Option Policy}
    {compact : Bool} (asked : ofArguments arguments = .ok (.decode file schemaFile flag compact)) :
    Succeeds s arguments ∨ LeftOpen s arguments .strict ∨ (run s arguments).status = 1 := by
  rcases decoded_cases s file schemaFile (flag.getD (Settings.read s.settings).policy) with
    ⟨schema, compiled, source, hread, hcompiles, hdocument⟩ | ⟨f, hf, hresolved⟩
  · have hloads := Loads.decode asked hread hcompiles hdocument
    rcases run_of_loads hloads with ⟨_, happlied, _⟩ | ⟨cause, hcause, hstatus⟩
    · exact .inl (.decode hloads happlied)
    · by_cases hu : (Failure.decode cause).Unresolved
      · obtain ⟨place, said, hsaid⟩ := hu
        cases hsaid
        obtain ⟨hstrict, reason, hopen⟩ := Resolver.decode_unresolved_iff.mp ⟨_, _, hcause⟩
        rw [hloads.policy_eq] at hstrict
        rw [hstrict] at hloads
        exact .inr (.inl ⟨compiled, source, reason, hloads, hopen⟩)
      · exact .inr (.inr (hstatus.trans (Failure.status_of_not_unresolved hu)))
  · refine .inr (.inr ?_)
    unfold run
    rw [asked]
    dsimp only [output]
    rw [hf]
    exact Failure.status_of_not_unresolved hresolved

theorem run_verdict (s : Surroundings) (arguments : List String) :
    Succeeds s arguments ∨ (Misused arguments ∨ LeftOpen s arguments .strict) ∨
      (run s arguments).status = 1 := by
  rcases hasked : ofArguments arguments with (topic | _ | _) | (⟨text, base⟩ | _)
  · exact .inl (.help hasked)
  · exact .inl (.version hasked)
  · exact .inr (.inl (.inl hasked))
  · cases hcanonical : canonical text base with
    | ok p => exact .inl (.path hasked hcanonical)
    | error f =>
      refine .inr (.inr ?_)
      unfold run
      rw [hasked]
      dsimp only [output]
      rw [hcanonical]
      exact Failure.status_of_not_unresolved (canonical_not_unresolved hcanonical)
  · rcases decode_verdict hasked with h | h | h
    · exact .inl h
    · exact .inr (.inl (.inr h))
    · exact .inr (.inr h)

end Runs

/-- A run that does what it is asked to ends with 0; one that is to decode and leaves the type open
under the policy that goes, which is strict, ends with 2, and so does one whose arguments are no
command; every other run ends with 1. -/
theorem run_status (s : Surroundings) (arguments : List String) :
    ((run s arguments).status = 0 ↔ Succeeds s arguments) ∧
    ((run s arguments).status = 2 ↔ Misused arguments ∨ LeftOpen s arguments .strict) ∧
    ((run s arguments).status = 1 ↔
      ¬ Succeeds s arguments ∧ ¬ Misused arguments ∧ ¬ LeftOpen s arguments .strict) := by
  have hzero : Succeeds s arguments → (run s arguments).status = 0 := status_of_succeeds
  have htwo : Misused arguments ∨ LeftOpen s arguments .strict → (run s arguments).status = 2 :=
    fun h => h.elim status_of_misused status_of_leftOpen
  refine ⟨⟨fun hstatus => ?_, hzero⟩, ⟨fun hstatus => ?_, htwo⟩, fun hstatus => ?_, ?_⟩
  · rcases run_verdict s arguments with h | h | h
    · exact h
    · exact absurd (hstatus.symm.trans (htwo h)) (by decide)
    · exact absurd (hstatus.symm.trans h) (by decide)
  · rcases run_verdict s arguments with h | h | h
    · exact absurd (hstatus.symm.trans (hzero h)) (by decide)
    · exact h
    · exact absurd (hstatus.symm.trans h) (by decide)
  · exact ⟨fun h => absurd (hstatus.symm.trans (hzero h)) (by decide),
      fun h => absurd (hstatus.symm.trans (htwo (.inl h))) (by decide),
      fun h => absurd (hstatus.symm.trans (htwo (.inr h))) (by decide)⟩
  · rintro ⟨hfails, hcommand, hclosed⟩
    rcases run_verdict s arguments with h | h | h
    · exact absurd h hfails
    · exact absurd h (not_or.mpr ⟨hcommand, hclosed⟩)
    · exact h

/-- Arguments that are no command end a run with 2, though no type is left open. -/
theorem status_of_missing_option :
    let s : Surroundings := ⟨fun _ => .error "", none, none⟩
    (run s ["decode"]).status = 2 ∧ ∀ policy, ¬ LeftOpen s ["decode"] policy := by
  intro s
  have hmisused : Misused ["decode"] := by
    rw [Misused]
    rfl
  refine ⟨status_of_misused hmisused, ?_⟩
  rintro policy ⟨_, _, _, hloads, -⟩
  cases hloads with
  | decode asked _ _ _ =>
    rw [show ofArguments _ = _ from hmisused] at asked
    cases asked

end Command

end Polydoc
