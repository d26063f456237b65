/-
  Proofs/Schema/Compilation.lean --- compiling a schema makes its types exactly when that is
  possible.

  The first part of compiling makes the types and looks up the one of the root.  It succeeds if all
  kinds can be read, all names are declared and no type leads back to itself; then each declared
  type has one record type.  Otherwise its error is true of the schema.
-/
import Polydoc.Proofs.Schema.Making

set_option autoImplicit false

namespace Polydoc.Schema

/-- What is wrong at the bottom of an error, without the fields that led there. -/
def TypeError.innermost : TypeError → TypeError
  | .inField _ _ cause => cause.innermost
  | e => e

/-- The wording of an error ends with what is wrong at the bottom of it. -/
theorem TypeError.message_innermost (e : TypeError) :
    ∃ context, e.message = context ++ e.innermost.message := by
  induction e with
  | inField type field cause ih =>
    obtain ⟨context, hcontext⟩ := ih
    obtain ⟨lead, hlead⟩ :
        ∃ lead, (inField type field cause).message = lead ++ cause.message := ⟨_, rfl⟩
    refine ⟨lead ++ context, ?_⟩
    rw [hlead, innermost, String.append_assoc, ← hcontext]
  | _ =>
    refine ⟨"", ?_⟩
    rw [String.empty_append]
    rfl

theorem explains_innermost {declared : Declared} {e : TypeError} (h : declared.Explains e) :
    declared.Explains e.innermost := by
  induction h with
  | emptyKind declares mem unreadable => exact .emptyKind declares mem unreadable
  | unknown refers undeclared => exact .unknown refers undeclared
  | cycle cycle => exact .cycle cycle
  | inField _ ih => exact ih

/-- The types of a schema: that of the root, and all that are declared. -/
def typed (s : Schema) : Except Error (RecordType × Built) :=
  match typesOf s.types with
  | .error cause => .error (.types cause)
  | .ok types =>
    match Entries.get? s.root types with
    | none => .error (.unknownRoot s.root)
    | some root => .ok (root, types)

/-- The types come first, and the resolver is made from them. -/
theorem compile_eq (s : Schema) (default : Policy) :
    s.compile default =
      match s.typed with
      | .error e => .error e
      | .ok (root, types) =>
        (resolverOf types (s.policy.getD default) s.resolver).map fun resolver =>
          ⟨root, types, resolver⟩ := by
  unfold compile typed
  cases typesOf s.types with
  | error cause => rfl
  | ok types =>
    change (do
      let root ← (Entries.get? s.root types).elim (Except.error (Error.unknownRoot s.root)) .ok
      let resolver ← resolverOf types (s.policy.getD default) s.resolver
      pure (Compiled.mk root types resolver)) = _
    cases hroot : Entries.get? s.root types with
    | none =>
      simp only [hroot]
      rfl
    | some root =>
      simp only [hroot]
      cases resolverOf types (s.policy.getD default) s.resolver <;> rfl

section Typed

variable {s : Schema}

theorem listed_of_typed {root : RecordType} {types : Built} (h : s.typed = .ok (root, types)) :
    Listed s.types types ∧ Entries.get? s.root types = some root ∧
      ∀ name, name ∈ Entries.keys types ↔ name ∈ Entries.keys s.types := by
  rcases typesOf_cases s.types with ⟨types', hok, hlisted, hall⟩ | ⟨cause, herror, -⟩
  · cases hroot : Entries.get? s.root types' with
    | none =>
      simp only [typed, hok, hroot] at h
      cases h
    | some root' =>
      simp only [typed, hok, hroot] at h
      cases h
      exact ⟨hlisted, hroot, hall⟩
  · simp only [typed, herror] at h
    cases h

theorem explained_of_typed {e : Error} (h : s.typed = .error e) :
    (∃ cause, e = .types cause ∧ s.types.Explains cause) ∨
      e = .unknownRoot s.root ∧ s.root ∉ Entries.keys s.types := by
  rcases typesOf_cases s.types with ⟨types, hok, -, hall⟩ | ⟨cause, herror, hexplains⟩
  · cases hroot : Entries.get? s.root types with
    | none =>
      simp only [typed, hok, hroot] at h
      cases h
      refine .inr ⟨rfl, ?_⟩
      rw [← hall, ← Entries.get?_isSome_iff, hroot]
      exact Bool.false_ne_true
    | some root =>
      simp only [typed, hok, hroot] at h
      cases h
  · simp only [typed, herror] at h
    cases h
    exact .inl ⟨cause, rfl, hexplains⟩

/-- The types of a schema are made exactly if they can be, and the root is one of them. -/
theorem typed_ok_iff (h : s.types.Distinct) :
    (∃ root types, s.typed = .ok (root, types)) ↔
      s.types.Makeable ∧ s.root ∈ Entries.keys s.types := by
  constructor
  · rintro ⟨root, types, hok⟩
    obtain ⟨hlisted, hroot, hall⟩ := listed_of_typed hok
    have hmakeable : s.types.Makeable :=
      hlisted.makeable h (fun name => (hall name).mpr) fun name => (hall name).mp
    exact ⟨hmakeable, (hall s.root).mp (Entries.mem_keys_of_get? hroot)⟩
  · rintro ⟨hmakeable, hroot⟩
    cases hresult : s.typed with
    | ok found => exact ⟨found.1, found.2, rfl⟩
    | error e =>
      rcases explained_of_typed hresult with ⟨cause, -, hexplains⟩ | ⟨-, hundeclared⟩
      · exact absurd hmakeable hexplains.not_makeable
      · exact absurd hroot hundeclared

/-- A cycle that an error ends with is one, and it stands at the end of the text. -/
theorem cycle_of_typed {cause : TypeError} {chain : List String}
    (h : s.typed = .error (.types cause)) (hchain : cause.innermost = .cycle chain) :
    s.types.Cycle chain ∧ ∃ context, (Error.types cause).message =
      context ++ ("type cycle: " ++ " -> ".intercalate chain) := by
  rcases explained_of_typed h with ⟨cause', heq, hexplains⟩ | ⟨heq, -⟩
  · cases heq
    have hinner := explains_innermost hexplains
    obtain ⟨context, hmessage⟩ := cause.message_innermost
    rw [hchain] at hinner hmessage
    cases hinner with
    | cycle cycle => exact ⟨cycle, context, hmessage⟩
  · cases heq

end Typed

/-- **Types are compiled exactly.**  The search for types has one outcome, whatever bounds it.  It
succeeds if and only if every kind can be read, every name is declared, the root is, and no type
refers to itself, directly or through others.  Then each declared type has one record type, with its
name, its fields in order and the kinds that they are written with, behind all that it refers to.
An error is true of the schema; if it tells a cycle, the types in its text are one. -/
theorem typed_exact (s : Schema) (h : s.types.Distinct) :
    (∀ default, s.compile default =
        match s.typed with
        | .error e => .error e
        | .ok (root, types) =>
          (resolverOf types (s.policy.getD default) s.resolver).map fun resolver =>
            ⟨root, types, resolver⟩) ∧
      (∃ find, Searches s.types find ∧ (∀ other, Searches s.types other → other = find) ∧
        typesOf s.types = (Entries.keys s.types).foldlM
          (fun built type => (find [] type built).map Prod.snd) []) ∧
      ((∃ root types, s.typed = .ok (root, types)) ↔
        s.types.Makeable ∧ s.root ∈ Entries.keys s.types) ∧
      (∀ root types, s.typed = .ok (root, types) →
        Describes s.types types ∧ Entries.get? s.root types = some root) ∧
      (∀ e, s.typed = .error e → (∃ cause, e = .types cause ∧ s.types.Explains cause) ∨
        e = .unknownRoot s.root ∧ s.root ∉ Entries.keys s.types) ∧
      ∀ cause chain, s.typed = .error (.types cause) → cause.innermost = .cycle chain →
        s.types.Cycle chain ∧ ∃ context, (Error.types cause).message =
          context ++ ("type cycle: " ++ " -> ".intercalate chain) := by
  refine ⟨compile_eq s, ⟨search s.types, searches_search s.types,
    fun _ => eq_search_of_searches, makeAll_eq_foldlM ..⟩, typed_ok_iff h, ?_,
    fun _ => explained_of_typed, fun _ _ => cycle_of_typed⟩
  intro root types hok
  obtain ⟨hlisted, hroot, hall⟩ := listed_of_typed hok
  exact ⟨hlisted.describes h hall, hroot⟩

/-- A type that two others refer to is made once, in front of both, and one that nothing refers to
is made too; two types that refer to each other are a cycle. -/
theorem typed_exact_stable :
    let resolver : ResolverForm := ⟨"tool", some "kind", [], []⟩
    let stable : Schema := ⟨"Stable", none, [("Stable", [("owner", "Person?"),
      ("horses", " [Horse]")]), ("Horse", [("rider", "Person"), ("hands", "integer")]),
      ("Tool", []), ("Person", [("name", "string")])], resolver⟩
    let loop : Schema := ⟨"Tool", none, [("Tool", [("of", "A")]), ("A", [("b", "B?")]),
      ("B", [("a", "[A]")])], resolver⟩
    (stable.types.Distinct ∧ ∃ root types, stable.typed = .ok (root, types) ∧
      Entries.keys types = ["Person", "Horse", "Stable", "Tool"] ∧
      Describes stable.types types) ∧
    loop.types.Distinct ∧ ∃ cause, loop.typed = .error (.types cause) ∧
      cause.innermost = .cycle ["A", "B", "A"] ∧ loop.types.Cycle ["A", "B", "A"] := by
  intro resolver stable loop
  have hstable : stable.types.Distinct := by
    constructor <;> simp [stable, Entries.Distinct, Entries.keys]
  have hloop : loop.types.Distinct := by
    constructor <;> simp [loop, Entries.Distinct, Entries.keys]
  have hkeys : (stable.typed.toOption.map fun found => Entries.keys found.2) =
      some ["Person", "Horse", "Stable", "Tool"] := by decide +kernel
  let cause : TypeError :=
    .inField "Tool" "of" (.inField "A" "b" (.inField "B" "a" (.cycle ["A", "B", "A"])))
  have hcause : typesOf loop.types = .error cause := by decide +kernel
  have hresult : loop.typed = .error (.types cause) := by
    rw [typed, hcause]
  refine ⟨⟨hstable, ?_⟩, hloop, ?_⟩
  · cases hresult : stable.typed with
    | error e =>
      rw [hresult] at hkeys
      cases hkeys
    | ok found =>
      obtain ⟨root, types⟩ := found
      rw [hresult] at hkeys
      exact ⟨root, types, rfl, Option.some.inj hkeys,
        ((typed_exact stable hstable).2.2.2.1 root types hresult).1⟩
  · exact ⟨cause, hresult, rfl, ((typed_exact loop hloop).2.2.2.2.2 cause _ hresult rfl).1⟩

end Polydoc.Schema
