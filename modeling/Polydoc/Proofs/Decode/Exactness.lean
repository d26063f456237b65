/-
  Proofs/Decode/Exactness.lean --- documents stay exact, whatever is done to them.

  Decoding into an exact document, overwriting a place in it and assigning a type to one leave every
  record with the names of its type, whether the call succeeds or stops halfway.  So the decoder
  finds each field that it is to fill, and makes none afresh.
-/
import Mathlib.Logic.Relation
import Polydoc.Proofs.Decode.Runs
import Polydoc.Proofs.Node.Exact

set_option autoImplicit false

namespace Polydoc

open Node

/-! ## Decoding -/

namespace Decode

/-- A declared field of an exact record is there. -/
theorem exists_slot {type : RecordType} {held : List (String × Node)} {name : String}
    (h : Exact (.record type held)) (hname : name ∈ Entries.keys type.fields) :
    ∃ slot, Entries.get? name held = some slot ∧ Exact slot := by
  obtain ⟨hkeys, hvalues⟩ := exact_record_iff.mp h
  have hmem : name ∈ Entries.keys held := hkeys ▸ RecordType.mem_names.mpr hname
  obtain ⟨slot, hslot⟩ := Entries.exists_get?_of_mem hmem
  exact ⟨slot, hslot, hvalues _ (Entries.mem_of_get? hslot)⟩

/-- The record that a slot is filled through is the one it holds, or a fresh one. -/
theorem exact_recordFor {type : RecordType} {slot : Node} (h : Exact slot) :
    Exact (recordFor type slot) := by
  rcases recordFor_cases type slot with ⟨_, _, _, _, heq⟩ | heq
  · rw [heq]
    exact h
  · rw [heq]
    exact exact_zero (.ofType type)

/-- Decoding from a source leaves exact documents exact. -/
structure KeepsExact (source : Node) : Prop where
  into : ∀ {slot : Node} (place : Place), Exact slot → Exact (into source slot place).1
  value : ∀ (kind : Kind) {slot : Node} (place : Place), Exact slot →
    Exact (value kind source slot place).1

section Lists

variable {place : Place}

theorem sequence_exact {item : Kind} {items : List Node}
    (keeps : ∀ source ∈ items, KeepsExact source) :
    ∀ (index : Nat) {decoded : List Node}, sequence item items place index = .ok decoded →
      ∀ n ∈ decoded, Exact n := by
  induction items with
  | nil =>
    intro index decoded h n hn
    rw [sequence_nil] at h
    cases h
    cases hn
  | cons source rest ih =>
    intro index decoded h n hn
    have hfirst := (keeps source List.mem_cons_self).value item (place ++ [.item index])
      (exact_zero item)
    have hrest : ∀ s ∈ rest, KeepsExact s := fun s hs => keeps s (List.mem_cons_of_mem _ hs)
    obtain ⟨first, more, hv, hs, rfl⟩ := sequence_cons_ok h
    rw [hv] at hfirst
    rcases List.mem_cons.mp hn with rfl | hmore
    · exact hfirst
    · exact ih hrest (index + 1) hs n hmore

/-- What one field of an exact record leaves is exact. -/
theorem field_exact {member : Node} {type : RecordType} {held : List (String × Node)}
    {name : String} {kind : Kind} (keeps : KeepsExact member)
    (h : Exact (.record type held)) (hdeclared : (name, kind) ∈ type.fields) :
    Exact (.record type (Entries.put name
      (value kind member (slotOf type name held) (place ++ [.member name])).1 held)) := by
  obtain ⟨slot, hslot, hexact⟩ := exists_slot h (List.mem_map_of_mem hdeclared)
  have hslotOf : slotOf type name held = slot := by rw [slotOf, hslot]
  rw [hslotOf]
  exact h.record_put (Entries.mem_keys_of_get? hslot) (keeps.value kind _ hexact)

theorem fields_exact {source : Node} {type : RecordType}
    (keeps : ∀ name member, lookup source name = some member → KeepsExact member)
    {todo : List (String × Kind)} :
    ∀ {held : List (String × Node)}, (∀ e ∈ todo, e ∈ type.fields) →
      Exact (.record type held) → Exact (.record type (fields source type todo held place).1) := by
  induction todo with
  | nil =>
    intro held _ h
    rw [fields_nil]
    exact h
  | cons e rest ih =>
    intro held htodo h
    obtain ⟨name, kind⟩ := e
    have hrest : ∀ e ∈ rest, e ∈ type.fields := fun e he => htodo e (List.mem_cons_of_mem _ he)
    cases hl : lookup source name with
    | none =>
      rw [fields_cons_none hl]
      exact ih hrest h
    | some member =>
      have hput : Exact (.record type (Entries.put name
          (value kind member (slotOf type name held) (place ++ [.member name])).1 held)) :=
        field_exact (keeps name member hl) h (htodo _ List.mem_cons_self)
      rw [fields_cons_some hl]
      cases hv : value kind member (slotOf type name held) (place ++ [.member name]) with
      | mk decoded result =>
        rw [hv] at hput
        cases result with
        | error e => exact hput
        | ok _ => exact ih hrest hput

theorem record_exact {source : Node} {type : RecordType} {held : List (String × Node)}
    (keeps : ∀ name member, lookup source name = some member → KeepsExact member)
    (h : Exact (.record type held)) : Exact (.record type (record source type held place).1) := by
  unfold record
  split
  · exact fields_exact keeps (fun e he => he) h
  · exact h

theorem merge_exact {values : List (String × Node)} (keeps : ∀ e ∈ values, KeepsExact e.2)
    (hvalues : ∀ e ∈ values, Exact e.2) :
    ∀ {entries : List (String × Node)}, (∀ e ∈ entries, Exact e.2) →
      ∀ e ∈ (merge values entries place).1, Exact e.2 := by
  induction values with
  | nil =>
    intro entries hentries
    rw [merge_nil]
    exact hentries
  | cons first rest ih =>
    intro entries hentries
    obtain ⟨key, source⟩ := first
    have hkeeps : ∀ e ∈ rest, KeepsExact e.2 := fun e he => keeps e (List.mem_cons_of_mem _ he)
    have hrest : ∀ e ∈ rest, Exact e.2 := fun e he => hvalues e (List.mem_cons_of_mem _ he)
    cases hget : Entries.get? key entries with
    | none =>
      rw [merge_cons_none hget]
      exact ih hkeeps hrest (Entries.forall_mem_put hentries (hvalues _ List.mem_cons_self))
    | some slot =>
      have hinto := (keeps _ List.mem_cons_self).into (place ++ [.member key])
        (hentries _ (Entries.mem_of_get? hget))
      rw [merge_cons_some hget]
      cases hi : into source slot (place ++ [.member key]) with
      | mk decoded result =>
        rw [hi] at hinto
        cases result with
        | error e => exact Entries.forall_mem_put hentries hinto
        | ok _ => exact ih hkeeps hrest (Entries.forall_mem_put hentries hinto)

end Lists

section Smaller

variable {source : Node} (hsource : Exact source)
  (smaller : ∀ n : Node, sizeOf n < sizeOf source → Exact n → KeepsExact n)

include hsource smaller

theorem record_core_exact {type : RecordType} {held : List (String × Node)} (place : Place)
    (h : Exact (.record type held)) :
    Exact (.record type (record source.core type held place).1) :=
  record_exact (fun _ member hl => smaller member (sizeOf_member_lt hl)
    (hsource.core.part (part_of_lookup hl))) h

theorem into_exact {slot : Node} (place : Place) (hslot : Exact slot) :
    Exact (into source slot place).1 := by
  rcases into_cases source slot with
    ⟨_, _, _, _, heq⟩ | ⟨type, held, hr, _, heq⟩ | ⟨held, values, hm, hv, heq⟩ | heq
  · rw [heq]
    exact hslot
  · rw [heq]
    exact hslot.withCore (record_core_exact hsource smaller place (hr ▸ hslot.core))
  · have hheld : ∀ e ∈ held, Exact e.2 := fun e he => (hm ▸ hslot.core).part (.entry he .here)
    have hvalues : ∀ e ∈ values, Exact e.2 :=
      fun e he => (hv ▸ hsource.core).part (.entry he .here)
    have hkeeps : ∀ e ∈ values, KeepsExact e.2 :=
      fun e he => smaller e.2 (sizeOf_entry_lt hv he) (hvalues e he)
    rw [heq]
    exact hslot.withCore (exact_mapping (merge_exact hkeeps hvalues hheld))
  · rw [heq]
    exact hslot.withCore hsource.core

theorem value_record_exact (hnull : source.isNull = false) (name : String)
    (declared : List (String × Kind)) {slot : Node} (place : Place) (hslot : Exact slot) :
    Exact (value (.record name declared) source slot place).1 := by
  have hfilled : Exact (recordFor ⟨name, declared⟩ slot) := exact_recordFor hslot
  obtain ⟨type, held, hcore⟩ := exists_recordFor ⟨name, declared⟩ slot
  rw [value_ofFields hnull hcore]
  exact hfilled.withCore (record_core_exact hsource smaller place (hcore ▸ hfilled.core))

theorem value_sequence_exact (hnull : source.isNull = false) (item : Kind) {slot : Node}
    (place : Place) (hslot : Exact slot) : Exact (value (.sequence item) source slot place).1 := by
  rcases value_sequence_cases hnull item with ⟨items, hi⟩ | hmismatch
  · have hkeeps : ∀ n ∈ items, KeepsExact n := fun n hn =>
      smaller n (sizeOf_item_lt hi hn) ((hi ▸ hsource.core).part (.item hn .here))
    rw [value_sequence hi]
    cases hs : sequence item items place 0 with
    | error e => exact hslot
    | ok decoded => exact exact_sequence (sequence_exact hkeeps 0 hs)
  · rw [hmismatch]
    exact hslot

omit smaller in
theorem value_mapping_exact (hnull : source.isNull = false) {slot : Node} (place : Place)
    (hslot : Exact slot) : Exact (value .mapping source slot place).1 := by
  rcases value_mapping_cases hnull with ⟨entries, he⟩ | hmismatch
  · rw [value_mapping he]
    exact he ▸ hsource.core
  · rw [hmismatch]
    exact hslot

/-- The kind of an optional field is decoded from the same source, so this goes by the kinds. -/
theorem value_exact (kind : Kind) {slot : Node} (place : Place) (hslot : Exact slot) :
    Exact (value kind source slot place).1 := by
  cases hnull : source.isNull with
  | true =>
    rw [value_null hnull]
    exact hslot
  | false =>
    have hscalar {kind : Kind} (hkind : ScalarKind kind) :
        Exact (value kind source slot place).1 := by
      rw [value_scalar hkind hnull]
      cases scalarFor kind source.core with
      | none => exact hslot
      | some s => exact exact_scalar s
    cases kind with
    | bool => exact hscalar trivial
    | integer => exact hscalar trivial
    | float => exact hscalar trivial
    | string => exact hscalar trivial
    | any =>
      rw [value_any hnull]
      exact into_exact hsource smaller place hslot
    | mapping => exact value_mapping_exact hsource hnull place hslot
    | sequence item => exact value_sequence_exact hsource smaller hnull item place hslot
    | optional inner =>
      have hinner := value_exact inner place (exact_zero inner)
      rw [value_optional hnull]
      cases hv : value inner source inner.zero place with
      | mk decoded result =>
        rw [hv] at hinner
        cases result with
        | error e => exact hslot
        | ok _ => exact exact_indirect hinner
    | record name declared =>
      exact value_record_exact hsource smaller hnull name declared place hslot

end Smaller

/-- An exact source keeps documents exact. -/
theorem keepsExact {source : Node} (h : Exact source) : KeepsExact source := by
  induction hsize : sizeOf source using Nat.strongRecOn generalizing source with
  | _ size ih =>
    have smaller : ∀ n : Node, sizeOf n < sizeOf source → Exact n → KeepsExact n :=
      fun n hlt hn => ih (sizeOf n) (hsize ▸ hlt) hn rfl
    exact ⟨into_exact h smaller, value_exact h smaller⟩

end Decode

theorem decodeInto_exact {source target : Node} (hsource : Exact source) (h : Exact target) :
    Exact (decodeInto source target).1 := by
  unfold decodeInto
  split
  · exact h
  · exact (Decode.keepsExact hsource).into [] h

/-! ## Overwriting -/

namespace Node

theorem Exact.store {n child value : Node} {key : String} (h : Exact n)
    (hs : n.stored? key = some child) (hvalue : Exact value) : Exact (n.store key value) := by
  rcases stored?_cases hs with
    ⟨entries, hcore, _, hstore⟩ | ⟨type, held, hcore, hget, _, hstore⟩
  · have hentries : ∀ e ∈ entries, Exact e.2 :=
      fun e he => (hcore ▸ h.core).part (.entry he .here)
    rw [hstore]
    exact h.withCore (exact_mapping (Entries.forall_mem_put hentries hvalue))
  · have hheld : Exact (.record type held) := hcore ▸ h.core
    rw [hstore]
    exact h.withCore (hheld.record_put (Entries.mem_keys_of_get? hget) hvalue)

theorem overwrite_exact {value : Node} (hvalue : Exact value) {es : List Element} :
    ∀ {n m : Node} {index : Nat}, n.overwrite value index es = .ok m → Exact n → Exact m := by
  induction es with
  | nil =>
    intro n m index h _
    cases h
    exact hvalue
  | cons e rest ih =>
    intro n m index h hn
    cases e with
    | self => exact ih h hn
    | name text =>
      rcases enter_cases n text with ⟨key, child, hk, hs, he⟩ | ⟨_, he⟩
      · obtain ⟨child', hc, rfl⟩ := overwrite_name_ok hk he h
        exact hn.store hs (ih hc (hn.part (part_of_stored? hs)))
      · rw [overwrite_name_error he] at h
        cases h
    | parent => cases h
    | root => cases h

theorem setAt?_exact {n m value : Node} {p : Path} (hn : Exact n) (hvalue : Exact value)
    (h : n.setAt? p value = .ok m) : Exact m :=
  overwrite_exact hvalue (setAt?_eq_ok_iff.mp h) hn

theorem assignTypeAt?_exact {n m : Node} {p : Path} {t : RecordType} (hn : Exact n)
    (h : n.assignTypeAt? p t = .ok m) : Exact m :=
  setAt?_exact hn (exact_zero (.ofType t)) h

end Node

/-! ## Resolving -/

namespace Resolver

variable (r : Resolver) (source target : Node)

/-- A resolver leaves a target alone or assigns a type to its slot. -/
theorem assign_cases : (r.assign source target).1 = target ∨
    ∃ t, target.assignTypeAt? r.target t = .ok (r.assign source target).1 := by
  unfold assign
  split
  · exact .inl rfl
  · split
    · exact .inl rfl
    · exact .inl rfl
  · rename_i t _
    split
    · exact .inl rfl
    · rename_i assigned h
      exact .inr ⟨t, h⟩

/-- Then the target is decoded into, unless the resolver failed. -/
theorem decode_cases : (r.decode source target).1 = (r.assign source target).1 ∨
    (r.decode source target).1 = (decodeInto source (r.assign source target).1).1 := by
  cases ha : r.assign source target with
  | mk assigned result =>
    cases result with
    | error e =>
      rw [decode, ha]
      exact .inl rfl
    | ok applied =>
      rw [decode_of_assign ha]
      exact .inr rfl

variable {r source target}

theorem assign_exact (h : Exact target) : Exact (r.assign source target).1 := by
  rcases assign_cases r source target with heq | ⟨t, ht⟩
  · rw [heq]
    exact h
  · exact assignTypeAt?_exact h ht

theorem decode_exact (hsource : Exact source) (h : Exact target) :
    Exact (r.decode source target).1 := by
  rcases decode_cases r source target with heq | heq
  · rw [heq]
    exact assign_exact h
  · rw [heq]
    exact decodeInto_exact hsource (assign_exact h)

end Resolver

end Polydoc
