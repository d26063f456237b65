/-
  Proofs/Kind.lean --- record types that declare no field name twice, and the zero records of such
  types.
-/
import Polydoc.Node.Basic
import Polydoc.Proofs.Entries

set_option autoImplicit false

namespace Polydoc

/-! ## Types without repeated field names -/

mutual

/-- Whether no record type within a kind declares a field name twice. -/
def Kind.Distinct : Kind → Prop
  | .sequence item => item.Distinct
  | .optional inner => inner.Distinct
  | .record _ fields => Entries.Distinct fields ∧ Kind.FieldsDistinct fields
  | _ => True

/-- Whether no record type within the kinds of fields declares a field name twice. -/
def Kind.FieldsDistinct : List (String × Kind) → Prop
  | [] => True
  | (_, kind) :: rest => kind.Distinct ∧ Kind.FieldsDistinct rest

end

/-- Whether neither a record type nor any type within it declares a field name twice. -/
def RecordType.Distinct (t : RecordType) : Prop :=
  (Kind.ofType t).Distinct

namespace Kind

theorem FieldsDistinct.get? {key : String} {kind : Kind} {fields : List (String × Kind)}
    (h : FieldsDistinct fields) (hk : Entries.get? key fields = some kind) : kind.Distinct := by
  induction fields with
  | nil => cases hk
  | cons e rest ih =>
    obtain ⟨k, first⟩ := e
    unfold FieldsDistinct at h
    simp only [Entries.get?] at hk
    split at hk
    · cases hk
      exact h.1
    · exact ih h.2 hk

/-! ## Zero values of fields -/

theorem get?_zeroFields (key : String) (fields : List (String × Kind)) :
    Entries.get? key (zeroFields fields) = (Entries.get? key fields).map zero := by
  induction fields with
  | nil => rfl
  | cons e rest ih =>
    obtain ⟨k, kind⟩ := e
    by_cases hk : k = key
    · simp [zeroFields, Entries.get?, hk]
    · simp [zeroFields, Entries.get?, hk, ih]

theorem keys_zeroFields (fields : List (String × Kind)) :
    Entries.keys (zeroFields fields) = Entries.keys fields := by
  induction fields with
  | nil => rfl
  | cons e rest ih =>
    obtain ⟨k, kind⟩ := e
    simpa [zeroFields, Entries.keys] using ih

theorem zeroFields_put (key : String) (kind : Kind) (fields : List (String × Kind)) :
    zeroFields (Entries.put key kind fields) = Entries.put key kind.zero (zeroFields fields) := by
  induction fields with
  | nil => rfl
  | cons e rest ih =>
    obtain ⟨k, first⟩ := e
    by_cases hk : k = key
    · simp [zeroFields, Entries.put, hk]
    · simp [zeroFields, Entries.put, hk, ih]

/-- A fresh record of a type without repeated names has one zero per declared field, in order. -/
theorem zero_record {name : String} {fields : List (String × Kind)} (h : Entries.Distinct fields) :
    (Kind.record name fields).zero = .record ⟨name, fields⟩ (zeroFields fields) := by
  have hzero : Entries.Distinct (zeroFields fields) := by
    unfold Entries.Distinct
    rw [keys_zeroFields]
    exact h
  rw [zero, Entries.ofList_of_distinct hzero]

end Kind

end Polydoc
