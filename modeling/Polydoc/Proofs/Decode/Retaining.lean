/-
  Proofs/Decode/Retaining.lean --- when a record that was put into a slot is still a record of its
  type after a value has been decoded into the slot.

  The kind that the slot is declared with decides.  A slot of kind `any` keeps the record and fills
  it, and so does a slot of the record's own type.  An optional slot is decoded afresh, and any other
  slot takes a value of its kind.  Only a null leaves whatever is there.
-/
import Polydoc.Proofs.Decode.Steps
import Polydoc.Proofs.Navigation.Place

set_option autoImplicit false

namespace Polydoc

namespace Node

/-- Whether a node, below its layers, is a record of a type. -/
def IsRecordOf (n : Node) (type : RecordType) : Prop :=
  ∃ held, n.core = .record type held

/-- A node is a record of one type at most. -/
theorem isRecordOf_iff {n : Node} {type other : RecordType} {held : List (String × Node)}
    (h : n.core = .record type held) : n.IsRecordOf other ↔ type = other := by
  constructor
  · rintro ⟨_, hother⟩
    rw [h] at hother
    cases hother
    rfl
  · rintro rfl
    exact ⟨held, h⟩

theorem not_isRecordOf {n : Node} {type : RecordType} (h : ∀ t held, n.core ≠ .record t held) :
    ¬ n.IsRecordOf type :=
  fun ⟨held, hn⟩ => h type held hn

end Node

namespace Kind

/-- Whether decoding a value into a fresh slot of a kind gives a record of the type. -/
inductive Gives (type : RecordType) (given : Node) : Kind → Prop where
  | any (is : given.IsRecordOf type) : Gives type given .any
  | record : Gives type given (.ofType type)
  | optional {inner : Kind} (inside : Gives type given inner) : Gives type given (.optional inner)

/-- Whether a slot of a kind that holds a record of the type still does when a value has been
decoded into it. -/
inductive Retains (type : RecordType) (given : Node) : Kind → Prop where
  | absent {kind : Kind} (null : given.isNull = true) : Retains type given kind
  | any : Retains type given .any
  | record : Retains type given (.ofType type)
  | optional {inner : Kind} (inside : Gives type given inner) : Retains type given (.optional inner)

/-- The kinds that hold no records. -/
def Recordless : Kind → Prop
  | .any => False
  | .optional _ => False
  | .record _ _ => False
  | _ => True

section Recordless

variable {type : RecordType} {given : Node} {kind : Kind}

theorem Recordless.not_gives (h : kind.Recordless) : ¬ kind.Gives type given := by
  intro hg
  cases hg with
  | any is => exact h
  | record => exact h
  | optional inside => exact h

theorem Recordless.not_retains (h : kind.Recordless) (hnull : given.isNull = false) :
    ¬ kind.Retains type given := by
  intro hr
  cases hr with
  | absent null =>
    rw [null] at hnull
    cases hnull
  | any => exact h
  | record => exact h
  | optional inside => exact h

end Recordless

/-- The record types that a kind names, apart from those that these name in turn: one at most. -/
def recordType? : Kind → Option RecordType
  | .sequence item => item.recordType?
  | .optional inner => inner.recordType?
  | .record name fields => some ⟨name, fields⟩
  | _ => none

end Kind

namespace Decode

open Node

variable {given slot decoded : Node} {place : Place} {type : RecordType}

/-- What is decoded as one of a kind that holds no records is none. -/
theorem not_record_of_value {kind : Kind} (hkind : kind.Recordless) (hnull : given.isNull = false)
    (h : value kind given slot place = (decoded, .ok ())) :
    ∀ t held, decoded.core ≠ .record t held := by
  have hscalar (hscalarKind : ScalarKind kind) : ∀ t held, decoded.core ≠ .record t held := by
    rw [value_scalar hscalarKind hnull] at h
    split at h
    · cases h
      intro t held heq
      cases heq
    · cases h
  cases kind with
  | bool => exact hscalar trivial
  | integer => exact hscalar trivial
  | float => exact hscalar trivial
  | string => exact hscalar trivial
  | mapping =>
    rcases value_mapping_cases hnull with ⟨entries, he⟩ | hmismatch
    · rw [value_mapping he] at h
      cases h
      intro t held heq
      cases heq
    · rw [hmismatch] at h
      cases h
  | sequence item =>
    rcases value_sequence_cases hnull item with ⟨items, hi⟩ | hmismatch
    · rw [value_sequence hi] at h
      split at h
      · cases h
        intro t held heq
        cases heq
      · cases h
    · rw [hmismatch] at h
      cases h
  | any => exact hkind.elim
  | optional inner => exact hkind.elim
  | record name fields => exact hkind.elim

/-- A slot of a record type holds a record of that type afterwards, or of the type of the same name
that it held a record of. -/
theorem record_of_value {name : String} {fields : List (String × Kind)} (hnull : given.isNull = false)
    (h : value (.record name fields) given slot place = (decoded, .ok ())) :
    ∃ t held, decoded.core = .record t held ∧
      (recordFor ⟨name, fields⟩ slot).IsRecordOf t := by
  obtain ⟨t, held, hcore⟩ := exists_recordFor ⟨name, fields⟩ slot
  rw [value_ofFields hnull hcore] at h
  have hdecoded := congrArg Prod.fst h
  dsimp only at hdecoded
  subst hdecoded
  exact ⟨t, _, core_withCore _ (bare_record t _), held, hcore⟩

/-- A fresh record is filled where a record of its type is declared. -/
theorem recordFor_zero (name : String) (fields : List (String × Kind)) (t : RecordType)
    (hname : t.name = name → t = ⟨name, fields⟩) :
    (recordFor ⟨name, fields⟩ t.zero).IsRecordOf ⟨name, fields⟩ := by
  have hrecord : t.zero.record? = some (t, Entries.ofList (Kind.zeroFields t.fields)) := rfl
  rw [recordFor, hrecord]
  dsimp only
  split
  · rename_i heq
    have ht := hname heq
    subst ht
    exact ⟨_, rfl⟩
  · exact ⟨_, rfl⟩

theorem isRecordOf_of_value {name : String} {fields : List (String × Kind)} {t : RecordType}
    (hnull : given.isNull = false) (hname : t.name = name → t = ⟨name, fields⟩)
    (h : value (.record name fields) given t.zero place = (decoded, .ok ())) :
    decoded.IsRecordOf type ↔ ⟨name, fields⟩ = type := by
  obtain ⟨t', held, hdecoded, hslot⟩ := record_of_value hnull h
  obtain ⟨zeros, hzero⟩ := recordFor_zero name fields t hname
  have ht : ⟨name, fields⟩ = t' := (isRecordOf_iff hzero).mp hslot
  rw [ht]
  exact isRecordOf_iff hdecoded

/-- An optional slot holds, below a layer, what a fresh slot of the inner kind does. -/
theorem filled_of_optional {inner : Kind} (hnull : given.isNull = false)
    (h : value (.optional inner) given slot place = (decoded, .ok ())) :
    ∃ filled, value inner given inner.zero place = (filled, .ok ()) ∧
      decoded = .indirect filled := by
  rw [value_optional hnull] at h
  cases hv : value inner given inner.zero place with
  | mk filled result =>
    rw [hv] at h
    cases result with
    | error e => cases h
    | ok _ =>
      cases h
      exact ⟨filled, rfl, rfl⟩

/-- What a fresh slot of a kind holds when a value has been decoded into it. -/
theorem gives_iff (hnull : given.isNull = false) (kind : Kind) {decoded : Node}
    (h : value kind given kind.zero place = (decoded, .ok ())) :
    decoded.IsRecordOf type ↔ kind.Gives type given := by
  have hnever (hkind : kind.Recordless) : decoded.IsRecordOf type ↔ kind.Gives type given :=
    iff_of_false (not_isRecordOf (not_record_of_value hkind hnull h)) hkind.not_gives
  cases kind with
  | bool => exact hnever trivial
  | integer => exact hnever trivial
  | float => exact hnever trivial
  | string => exact hnever trivial
  | mapping => exact hnever trivial
  | sequence item => exact hnever trivial
  | any =>
    have hinto : into given .null place = (given.core, .ok ()) := by
      refine into_of_other (fun t held heq => ?_) fun entries _ heq => ?_
      · cases heq
      · cases heq
    rw [value_any hnull, Kind.zero, hinto] at h
    cases h
    have hcore : given.core.IsRecordOf type ↔ given.IsRecordOf type := by
      unfold IsRecordOf
      rw [core_core]
    refine hcore.trans ⟨.any, ?_⟩
    rintro ⟨is⟩
    exact is
  | optional inner =>
    obtain ⟨filled, hv, rfl⟩ := filled_of_optional hnull h
    have hinner : filled.IsRecordOf type ↔ inner.Gives type given := gives_iff hnull inner hv
    refine hinner.trans ⟨.optional, ?_⟩
    rintro (_ | _ | inside)
    exact inside
  | record name fields =>
    have hrecord : decoded.IsRecordOf type ↔ ⟨name, fields⟩ = type :=
      isRecordOf_of_value (t := ⟨name, fields⟩) hnull (fun _ => rfl) h
    refine hrecord.trans ⟨?_, ?_⟩
    · rintro rfl
      exact .record
    · rintro ⟨⟩
      rfl

/-- **What becomes of a record in a slot.**  A fresh record of a type is put into a slot, and a value
is decoded into it as one of the kind that the slot is declared with.  Afterwards the slot holds a
record of that type just if its kind retains it.  A record type of the same name that the kind
declares has to be the same one. -/
theorem retains_iff (kind : Kind)
    (coherent : ∀ t, kind.recordType? = some t → type.name = t.name → type = t)
    (h : value kind given type.zero place = (slot, .ok ())) :
    slot.IsRecordOf type ↔ kind.Retains type given := by
  cases hnull : given.isNull with
  | true =>
    rw [value_null hnull] at h
    cases h
    exact iff_of_true ⟨_, rfl⟩ (.absent hnull)
  | false =>
    have hgiven : ¬ given.isNull = true := by simp [hnull]
    have hnever (hkind : kind.Recordless) : slot.IsRecordOf type ↔ kind.Retains type given :=
      iff_of_false (not_isRecordOf (not_record_of_value hkind hnull h)) (hkind.not_retains hnull)
    cases kind with
    | bool => exact hnever trivial
    | integer => exact hnever trivial
    | float => exact hnever trivial
    | string => exact hnever trivial
    | mapping => exact hnever trivial
    | sequence item => exact hnever trivial
    | any =>
      have hzero : type.zero.core = .record type (Entries.ofList (Kind.zeroFields type.fields)) :=
        rfl
      rw [value_any hnull, into_of_record hzero hnull] at h
      have hslot := congrArg Prod.fst h
      dsimp only at hslot
      subst hslot
      exact iff_of_true ⟨_, core_withCore _ (bare_record type _)⟩ .any
    | optional inner =>
      obtain ⟨filled, hv, rfl⟩ := filled_of_optional hnull h
      have hinner : filled.IsRecordOf type ↔ inner.Gives type given := gives_iff hnull inner hv
      refine hinner.trans ⟨.optional, ?_⟩
      rintro (missing | _ | _ | inside)
      · exact absurd missing hgiven
      · exact inside
    | record name fields =>
      have hrecord : slot.IsRecordOf type ↔ ⟨name, fields⟩ = type :=
        isRecordOf_of_value hnull (coherent ⟨name, fields⟩ rfl) h
      refine hrecord.trans ⟨?_, ?_⟩
      · rintro rfl
        exact .record
      · rintro (missing | _ | _ | _)
        · exact absurd missing hgiven
        · rfl

end Decode

end Polydoc
