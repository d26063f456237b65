/-
  Proofs/Decode/Runs.lean --- documents that are decoded into and assigned types to, one call after
  another.

  Types are assigned to open slots alone, those that are not declared with a kind other than `any`.
  Whether a call succeeds or stops halfway, the records of a sound document conform afterwards as
  they did before, so they conform in whatever a run makes of a fresh record.
-/
import Polydoc.Proofs.Decode.Conforming

set_option autoImplicit false

namespace Polydoc

open Node

/-! ## Open slots -/

/-- Whether anything may be put into a slot with that declaration. -/
def Kind.Open (declared : Option Kind) : Prop :=
  ∀ kind, declared = some kind → kind = .any

namespace Node

/-- The kind that the value under a stored key is declared with.  Only the fields of records are
declared. -/
def kindAt? (n : Node) (key : String) : Option Kind :=
  n.record?.bind fun r => r.1.kind? key

/-- The kind that the node at the end of the elements is declared with, where the first node is
declared with `own`. -/
def declared? (own : Option Kind) (n : Node) : List Element → Option Kind
  | [] => own
  | .self :: rest => n.declared? own rest
  | .name text :: rest =>
    match n.key? text, n.enter text with
    | some key, .ok child => child.declared? (n.kindAt? key) rest
    | _, _ => none
  | .parent :: _ => none
  | .root :: _ => none

/-- Whether a path leads to an open slot of a document, if it leads anywhere.  The document itself
is declared nowhere. -/
def OpenAt (n : Node) (p : Path) : Prop :=
  Kind.Open (n.declared? none p.elements)

section Steps

variable {n child : Node} {name key : String}

theorem declared?_name (hk : n.key? name = some key) (he : n.enter name = .ok child)
    (own : Option Kind) (rest : List Element) :
    n.declared? own (.name name :: rest) = child.declared? (n.kindAt? key) rest := by
  rw [declared?, hk, he]

/-- A stored value is that of a mapping, without a declaration, or that of a record, declared by its
type. -/
theorem stored?_cases (h : n.stored? key = some child) :
    (∃ entries, n.core = .mapping entries ∧ Entries.get? key entries = some child ∧
        ∀ value, n.store key value = n.withCore (.mapping (Entries.put key value entries))) ∨
      ∃ type held, n.core = .record type held ∧ Entries.get? key held = some child ∧
        n.kindAt? key = type.kind? key ∧
        ∀ value, n.store key value = n.withCore (.record type (Entries.put key value held)) := by
  obtain ⟨members, hmembers, hget, hstore⟩ := store_eq h
  unfold members? at hmembers
  cases hn : n.core with
  | mapping entries =>
    rw [hn] at hmembers
    cases hmembers
    refine .inl ⟨members, rfl, hget, fun value => ?_⟩
    rw [hstore, withMembers, hn]
  | record type held =>
    rw [hn] at hmembers
    cases hmembers
    refine .inr ⟨type, members, rfl, hget, ?_, fun value => ?_⟩
    · rw [kindAt?, record?, hn]
      rfl
    · rw [hstore, withMembers, hn]
  | _ =>
    rw [hn] at hmembers
    cases hmembers

end Steps

end Node

/-! ## Assigning -/

/-- A stored value can be replaced by one that fits as it did, and by anything sound if its slot is
open. -/
theorem Kind.Fits.store {kind : Kind} {n child child' : Node} {key : String} (h : kind.Fits n)
    (hs : n.stored? key = some child)
    (hchild : ∀ k : Kind, k.Fits child →
      k.Fits child' ∨ (Kind.Open (n.kindAt? key) ∧ Kind.any.Fits child')) :
    kind.Fits (n.store key child') := by
  rcases stored?_cases hs with
    ⟨entries, hcore, hget, hstore⟩ | ⟨type, held, hcore, hget, hk, hstore⟩
  · have hentries : ∀ e ∈ entries, Kind.any.Fits e.2 := h.entries_sound hcore
    have hsound : Kind.any.Fits child' :=
      (hchild .any (hentries _ (Entries.mem_of_get? hget))).elim id And.right
    rw [hstore]
    exact h.withCore_mapping hcore (Entries.forall_mem_put hentries hsound)
  · have hconforms : type.Conforms held := h.conforms hcore
    obtain ⟨declared, hdeclared, hold⟩ := hconforms.values key child (Entries.mem_of_get? hget)
    rw [hstore]
    refine h.withCore_record hcore ?_
    rcases hchild declared hold with hnew | ⟨hopen, hsound⟩
    · exact hconforms.put hdeclared hnew
    · -- the name may be declared twice, but its first declaration is `any`
      obtain ⟨first, hfirst⟩ := Entries.exists_get?_of_mem (List.mem_map_of_mem hdeclared)
      have hany : first = .any := hopen first (hk.trans hfirst)
      subst hany
      exact hconforms.put (Entries.mem_of_get? hfirst) hsound

/-- Overwriting an open slot with something sound: the document fits as it did, unless it is the
slot itself. -/
theorem overwrite_fits {value : Node} (hvalue : Kind.any.Fits value) {es : List Element} :
    ∀ {n m : Node} {index : Nat} {own : Option Kind} {kind : Kind},
      n.overwrite value index es = .ok m → Kind.Open (n.declared? own es) → kind.Fits n →
        kind.Fits m ∨ (Kind.Open own ∧ Kind.any.Fits m) := by
  induction es with
  | nil =>
    intro n m index own kind h hopen _
    cases h
    exact .inr ⟨hopen, hvalue⟩
  | cons e rest ih =>
    intro n m index own kind h hopen hfits
    cases e with
    | self => exact ih h hopen hfits
    | name text =>
      rcases enter_cases n text with ⟨key, child, hk, hs, he⟩ | ⟨_, he⟩
      · obtain ⟨child', hc, rfl⟩ := overwrite_name_ok hk he h
        rw [declared?_name hk he] at hopen
        exact .inl (hfits.store hs fun k hchild => ih hc hopen hchild)
      · rw [overwrite_name_error he] at h
        cases h
    | parent => cases h
    | root => cases h

/-- Assigning a type to an open slot leaves a sound document sound. -/
theorem assignTypeAt?_sound {n m : Node} {p : Path} {type : RecordType} (hopen : n.OpenAt p)
    (hn : Kind.any.Fits n) (h : n.assignTypeAt? p type = .ok m) : Kind.any.Fits m := by
  have hzero : Kind.any.Fits type.zero := (Kind.ofType type).zero_fits.sound
  exact (overwrite_fits hzero (setAt?_eq_ok_iff.mp h) hopen hn).elim id And.right

/-! ## Runs -/

/-- A call that changes a document. -/
inductive Call where
  | decode (source : Node)
  | assign (p : Path) (type : RecordType)

namespace Call

/-- The document that a call leaves, whether it succeeds or fails. -/
def apply (n : Node) : Call → Node
  | .decode source => (decodeInto source n).1
  | .assign p type =>
    match n.assignTypeAt? p type with
    | .ok assigned => assigned
    | .error _ => n

/-- What calls are made: sources are without records, and types go to open slots. -/
def Allowed (n : Node) : Call → Prop
  | .decode source => RecordFree source
  | .assign p _ => n.OpenAt p

theorem apply_sound {n : Node} {c : Call} (hallowed : c.Allowed n) (h : Kind.any.Fits n) :
    Kind.any.Fits (c.apply n) := by
  cases c with
  | decode source => exact decodeInto_sound hallowed h
  | assign p type =>
    cases ha : n.assignTypeAt? p type with
    | error e =>
      rw [apply, ha]
      exact h
    | ok assigned =>
      rw [apply, ha]
      exact assignTypeAt?_sound hallowed h ha

end Call

/-- The documents that calls, one after another, make of the first one. -/
inductive Reached (start : Node) : Node → Prop where
  | start : Reached start start
  | call {n : Node} (before : Reached start n) (c : Call) (allowed : c.Allowed n) :
      Reached start (c.apply n)

theorem Reached.sound {start n : Node} (h : Reached start n) (hstart : Kind.any.Fits start) :
    Kind.any.Fits n := by
  induction h with
  | start => exact hstart
  | call before c allowed ih => exact Call.apply_sound allowed ih

/-- **Records conform, whatever is called.**  In every document that calls make of a fresh record,
each record has one value for each name that its type declares, and the value fits the kind that is
declared for it. -/
theorem Reached.records_conform {t : RecordType} {n : Node} (h : Reached t.zero n)
    {type : RecordType} {held : List (String × Node)} (hpart : Part (.record type held) n) :
    type.Conforms held ∧
      (Entries.Distinct type.fields → ∀ key kind, type.kind? key = some kind →
        ∃ m, Entries.get? key held = some m ∧ kind.Fits m) := by
  have hsound : Kind.any.Fits n := h.sound (Kind.ofType t).zero_fits.sound
  have hconforms : type.Conforms held := Kind.fits_any_iff.mp hsound type held hpart
  exact ⟨hconforms, fun hd key kind hkind => hconforms.fits_declared hd hkind⟩

/-- A pet is decoded after a first attempt stopped at the second field and a type was assigned to
the third one. -/
theorem Reached.records_conform_stable :
    let horse : RecordType := ⟨"Horse", [("name", .string), ("hands", .integer)]⟩
    let stable : RecordType := ⟨"Stable", [("kind", .string), ("count", .integer), ("pet", .any)]⟩
    let pet : Path := ⟨[.name "pet"], true⟩
    let broken : Node := .mapping [("kind", .string "horse"), ("count", .string "many")]
    let source : Node := .mapping [("kind", .string "horse"), ("count", .integer 3),
      ("pet", .mapping [("name", .string "Bo"), ("hands", .integer 15)])]
    let held : List (String × Node) := [("name", .string "Bo"), ("hands", .integer 15)]
    let stopped : Node := .record stable
      [("kind", .string "horse"), ("count", .integer 0), ("pet", .null)]
    let assigned : Node := .record stable
      [("kind", .string "horse"), ("count", .integer 0), ("pet", horse.zero)]
    let filled : Node := .record stable
      [("kind", .string "horse"), ("count", .integer 3), ("pet", .record horse held)]
    decodeInto broken stable.zero = (stopped, .error ⟨[.member "count"], "integer", "string"⟩) ∧
      stopped.OpenAt pet ∧ stopped.assignTypeAt? pet horse = .ok assigned ∧
      decodeInto source assigned = (filled, .ok ()) ∧ Reached stable.zero filled ∧
      horse.Conforms held := by
  intro horse stable pet broken source held stopped assigned filled
  have hstopped : decodeInto broken stable.zero =
      (stopped, .error ⟨[.member "count"], "integer", "string"⟩) := by
    simp [broken, stable, stopped, decodeInto, Decode.into, Decode.record, Decode.fields,
      Decode.value, Decode.lookup, Decode.hasMembers, Decode.scalarFor, Decode.mismatch, Kind.zero,
      Kind.zeroFields, Kind.ofType, Kind.text, RecordType.zero, Entries.ofList, Entries.putAll,
      Entries.put, Entries.get?, Entries.find?, Entries.resolve?, Node.core, Node.isNull,
      Node.string, Node.integer, Node.withCore, Node.kindName, Scalar.kindName]
  have hopen : stopped.OpenAt pet := by
    intro kind hkind
    have hany : some Kind.any = some kind := hkind
    cases hany
    rfl
  have hassigned : stopped.assignTypeAt? pet horse = .ok assigned := rfl
  have hfilled : decodeInto source assigned = (filled, .ok ()) := by
    simp [source, assigned, filled, stable, horse, held, decodeInto, Decode.into, Decode.record,
      Decode.fields, Decode.value, Decode.lookup, Decode.hasMembers, Decode.scalarFor, Kind.zero,
      Kind.zeroFields, Kind.ofType, RecordType.zero, Entries.ofList, Entries.putAll, Entries.put,
      Entries.get?, Entries.find?, Entries.resolve?, Node.core, Node.isNull, Node.string,
      Node.integer, Node.withCore]
  have hnone : ∀ e ∈ ([] : List (String × Node)), RecordFree e.2 := fun e he => by cases he
  have hbrokenFree : RecordFree broken :=
    recordFree_mapping (List.forall_mem_cons.mpr ⟨recordFree_scalar _,
      List.forall_mem_cons.mpr ⟨recordFree_scalar _, hnone⟩⟩)
  have hpetFree : RecordFree (.mapping [("name", .string "Bo"), ("hands", .integer 15)]) :=
    recordFree_mapping (List.forall_mem_cons.mpr ⟨recordFree_scalar _,
      List.forall_mem_cons.mpr ⟨recordFree_scalar _, hnone⟩⟩)
  have hsourceFree : RecordFree source :=
    recordFree_mapping (List.forall_mem_cons.mpr ⟨recordFree_scalar _,
      List.forall_mem_cons.mpr ⟨recordFree_scalar _,
        List.forall_mem_cons.mpr ⟨hpetFree, hnone⟩⟩⟩)
  have hreached : Reached stable.zero filled := by
    have hfirst := (Reached.start : Reached stable.zero stable.zero).call (.decode broken)
      hbrokenFree
    rw [Call.apply, hstopped] at hfirst
    have hsecond := hfirst.call (.assign pet horse) hopen
    rw [Call.apply, hassigned] at hsecond
    have hthird := hsecond.call (.decode source) hsourceFree
    rw [Call.apply, hfilled] at hthird
    exact hthird
  have hmem : ("pet", Node.record horse held) ∈
      [("kind", .string "horse"), ("count", .integer 3), ("pet", .record horse held)] := by simp
  have hpart : Part (.record horse held) filled := .field hmem .here
  exact ⟨hstopped, hopen, hassigned, hfilled, hreached, (hreached.records_conform hpart).1⟩

end Polydoc
