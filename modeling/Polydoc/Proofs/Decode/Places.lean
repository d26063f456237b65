/-
  Proofs/Decode/Places.lean --- decoding does not depend on the place where it happens.

  The place is carried along for errors alone.  Decoding at a place inside another one gives what
  decoding at that place alone gives, with the outer place in front of that of the error.
-/
import Polydoc.Proofs.Decode.Steps

set_option autoImplicit false

namespace Polydoc.Decode

/-! ## Outcomes behind a place -/

/-- The error of a value that stands behind another place. -/
def Error.behind (outer : Place) (e : Error) : Error :=
  { e with place := outer ++ e.place }

/-- A result with the place of its error behind another one. -/
def resultBehind {α : Type} (outer : Place) : Except Error α → Except Error α
  | .ok a => .ok a
  | .error e => .error (e.behind outer)

/-- An outcome with the place of its error behind another one. -/
def Outcome.behind {α : Type} (outer : Place) (o : Outcome α) : Outcome α :=
  (o.1, resultBehind outer o.2)

/-- Decoding from a source behind a place is decoding without it, but for the places of errors. -/
structure Relocates (source : Node) : Prop where
  into : ∀ (slot : Node) (outer place : Place),
    into source slot (outer ++ place) = (into source slot place).behind outer
  value : ∀ (kind : Kind) (slot : Node) (outer place : Place),
    value kind source slot (outer ++ place) = (value kind source slot place).behind outer

/-! ## Items, fields and entries -/

section Lists

variable {outer place : Place}

theorem sequence_behind {item : Kind} {items : List Node}
    (relocates : ∀ source ∈ items, Relocates source) :
    ∀ (index : Nat), sequence item items (outer ++ place) index =
      resultBehind outer (sequence item items place index) := by
  induction items with
  | nil =>
    intro index
    rw [sequence_nil, sequence_nil]
    rfl
  | cons source rest ih =>
    intro index
    have hfirst := (relocates source List.mem_cons_self).value item item.zero outer
      (place ++ [.item index])
    have hrest := ih (fun s hs => relocates s (List.mem_cons_of_mem _ hs)) (index + 1)
    rw [sequence_cons, sequence_cons, List.append_assoc, hfirst, hrest]
    cases value item source item.zero (place ++ [.item index]) with
    | mk decoded result =>
      cases result with
      | error e => rfl
      | ok _ => cases sequence item rest place (index + 1) <;> rfl

theorem fields_behind {source : Node} {type : RecordType}
    (relocates : ∀ name member, lookup source name = some member → Relocates member)
    {todo : List (String × Kind)} :
    ∀ (held : List (String × Node)), fields source type todo held (outer ++ place) =
      (fields source type todo held place).behind outer := by
  induction todo with
  | nil =>
    intro held
    rw [fields_nil, fields_nil]
    rfl
  | cons e rest ih =>
    intro held
    obtain ⟨name, kind⟩ := e
    cases hl : lookup source name with
    | none =>
      rw [fields_cons_none hl, fields_cons_none hl]
      exact ih held
    | some member =>
      have hmember := (relocates name member hl).value kind (slotOf type name held) outer
        (place ++ [.member name])
      rw [fields_cons_some hl, fields_cons_some hl, List.append_assoc, hmember]
      cases value kind member (slotOf type name held) (place ++ [.member name]) with
      | mk decoded result =>
        cases result with
        | error e => rfl
        | ok _ => exact ih (Entries.put name decoded held)

theorem record_behind {source : Node}
    (relocates : ∀ name member, lookup source name = some member → Relocates member)
    (type : RecordType) (held : List (String × Node)) :
    record source type held (outer ++ place) = (record source type held place).behind outer := by
  unfold record
  split
  · exact fields_behind relocates held
  · rfl

theorem merge_behind {values : List (String × Node)}
    (relocates : ∀ e ∈ values, Relocates e.2) :
    ∀ (entries : List (String × Node)), merge values entries (outer ++ place) =
      (merge values entries place).behind outer := by
  induction values with
  | nil =>
    intro entries
    rw [merge_nil, merge_nil]
    rfl
  | cons first rest ih =>
    intro entries
    obtain ⟨key, source⟩ := first
    have hrest := ih fun e he => relocates e (List.mem_cons_of_mem _ he)
    cases hget : Entries.get? key entries with
    | none =>
      rw [merge_cons_none hget, merge_cons_none hget]
      exact hrest (Entries.put key source entries)
    | some slot =>
      have hinto := (relocates _ List.mem_cons_self).into slot outer (place ++ [.member key])
      rw [merge_cons_some hget, merge_cons_some hget, List.append_assoc, hinto]
      cases into source slot (place ++ [.member key]) with
      | mk decoded result =>
        cases result with
        | error e => rfl
        | ok _ => exact hrest (Entries.put key decoded entries)

end Lists

/-! ## All sources -/

section Smaller

variable {source : Node} (smaller : ∀ n : Node, sizeOf n < sizeOf source → Relocates n)

include smaller

theorem into_behind (slot : Node) (outer place : Place) :
    into source slot (outer ++ place) = (into source slot place).behind outer := by
  have hmembers : ∀ name member, lookup source.core name = some member → Relocates member :=
    fun _ member hl => smaller member (sizeOf_member_lt hl)
  rcases into_cases source slot with
    ⟨_, _, _, _, heq⟩ | ⟨_, _, _, _, heq⟩ | ⟨_, _, _, hv, heq⟩ | heq
  · rw [heq, heq]
    rfl
  · rw [heq, heq, record_behind hmembers]
    rfl
  · rw [heq, heq, merge_behind fun e he => smaller e.2 (sizeOf_entry_lt hv he)]
    rfl
  · rw [heq, heq]
    rfl

theorem value_record_behind (hnull : source.isNull = false) (name : String)
    (declared : List (String × Kind)) (slot : Node) (outer place : Place) :
    value (.record name declared) source slot (outer ++ place) =
      (value (.record name declared) source slot place).behind outer := by
  obtain ⟨type, held, hcore⟩ := exists_recordFor ⟨name, declared⟩ slot
  rw [value_ofFields hnull hcore, value_ofFields hnull hcore,
    record_behind fun _ member hl => smaller member (sizeOf_member_lt hl)]
  rfl

theorem value_sequence_behind (hnull : source.isNull = false) (item : Kind) (slot : Node)
    (outer place : Place) :
    value (.sequence item) source slot (outer ++ place) =
      (value (.sequence item) source slot place).behind outer := by
  rcases value_sequence_cases hnull item with ⟨items, hi⟩ | hmismatch
  · rw [value_sequence hi, value_sequence hi,
      sequence_behind fun n hn => smaller n (sizeOf_item_lt hi hn)]
    cases sequence item items place 0 <;> rfl
  · rw [hmismatch, hmismatch]
    rfl

omit smaller in
theorem value_mapping_behind (hnull : source.isNull = false) (slot : Node) (outer place : Place) :
    value .mapping source slot (outer ++ place) =
      (value .mapping source slot place).behind outer := by
  rcases value_mapping_cases hnull with ⟨entries, he⟩ | hmismatch
  · rw [value_mapping he, value_mapping he]
    rfl
  · rw [hmismatch, hmismatch]
    rfl

/-- The kind of an optional field is decoded from the same source, so this goes by the kinds. -/
theorem value_behind (kind : Kind) (slot : Node) (outer place : Place) :
    value kind source slot (outer ++ place) = (value kind source slot place).behind outer := by
  cases hnull : source.isNull with
  | true =>
    rw [value_null hnull, value_null hnull]
    rfl
  | false =>
    have hscalar {kind : Kind} (hkind : ScalarKind kind) :
        value kind source slot (outer ++ place) = (value kind source slot place).behind outer := by
      rw [value_scalar hkind hnull, value_scalar hkind hnull]
      cases scalarFor kind source.core <;> rfl
    cases kind with
    | bool => exact hscalar trivial
    | integer => exact hscalar trivial
    | float => exact hscalar trivial
    | string => exact hscalar trivial
    | any =>
      rw [value_any hnull, value_any hnull]
      exact into_behind smaller slot outer place
    | mapping => exact value_mapping_behind hnull slot outer place
    | sequence item => exact value_sequence_behind smaller hnull item slot outer place
    | optional inner =>
      rw [value_optional hnull, value_optional hnull, value_behind inner inner.zero outer place]
      cases value inner source inner.zero place with
      | mk decoded result => cases result <;> rfl
    | record name declared => exact value_record_behind smaller hnull name declared slot outer place

end Smaller

/-- Decoding behind a place is decoding without it, but for the places of errors. -/
theorem relocates (source : Node) : Relocates source := by
  induction hsize : sizeOf source using Nat.strongRecOn generalizing source with
  | _ size ih =>
    have smaller : ∀ n : Node, sizeOf n < sizeOf source → Relocates n :=
      fun n hlt => ih (sizeOf n) (hsize ▸ hlt) n rfl
    exact ⟨into_behind smaller, value_behind smaller⟩

end Polydoc.Decode

namespace Polydoc

/-- What is decoded into a slot without a declared kind, wherever it stands, is decoded into it as a
document of its own. -/
theorem decodeInto_of_value_any {source slot decoded : Node} {place : Decode.Place}
    (h : Decode.value .any source slot place = (decoded, .ok ())) :
    decodeInto source slot = (decoded, .ok ()) := by
  have hroot : Decode.value .any source slot [] = decodeInto source slot := by
    unfold decodeInto
    split
    · rename_i hnull
      exact Decode.value_null hnull .any
    · rename_i hnull
      exact Decode.value_any (by simpa using hnull)
  have hplace := (Decode.relocates source).value .any slot place []
  rw [List.append_nil, h, hroot] at hplace
  cases hd : decodeInto source slot with
  | mk written result =>
    rw [hd] at hplace
    cases result with
    | error e => cases hplace
    | ok _ =>
      cases hplace
      rfl

end Polydoc
