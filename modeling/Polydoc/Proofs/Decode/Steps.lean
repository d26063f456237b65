/-
  Proofs/Decode/Steps.lean --- what one step of the decoder does: into a slot of each declared kind,
  into a slot that holds a record, through one field of a record, and through the fields of a record
  one after another; and what a resolver makes of it.
-/
import Polydoc.Proofs.Kind
import Polydoc.Resolver.Decode

set_option autoImplicit false

namespace Polydoc.Decode

/-! ## What stands in a source is smaller -/

section Sizes

variable {source : Node}

theorem sizeOf_member_lt {name : String} {member : Node}
    (h : lookup source.core name = some member) : sizeOf member < sizeOf source := by
  have hsize := sizeOf_lt_of_lookup h
  have hcore := Node.sizeOf_core_le source
  omega

theorem sizeOf_entry_lt {values : List (String × Node)} (h : source.core = .mapping values)
    {e : String × Node} (he : e ∈ values) : sizeOf e.2 < sizeOf source := by
  have hmem := List.sizeOf_lt_of_mem he
  have hcore := Node.sizeOf_core_le source
  rw [h, Node.mapping.sizeOf_spec] at hcore
  obtain ⟨key, n⟩ := e
  rw [Prod.mk.sizeOf_spec] at hmem
  dsimp only
  omega

theorem sizeOf_item_lt {items : List Node} (h : source.core = .sequence items) {n : Node}
    (hn : n ∈ items) : sizeOf n < sizeOf source := by
  have hmem := List.sizeOf_lt_of_mem hn
  have hcore := Node.sizeOf_core_le source
  rw [h, Node.sequence.sizeOf_spec] at hcore
  omega

end Sizes

/-! ## A slot of a declared kind -/

section Value

variable {source slot : Node} {place : Place}

theorem value_null (h : source.isNull = true) (kind : Kind) :
    value kind source slot place = (slot, .ok ()) := by
  rw [value.eq_def, if_pos h]

/-- The kinds of single scalars. -/
def ScalarKind : Kind → Prop
  | .bool => True
  | .integer => True
  | .float => True
  | .string => True
  | _ => False

theorem value_scalar {kind : Kind} (hkind : ScalarKind kind) (h : source.isNull = false) :
    value kind source slot place =
      match scalarFor kind source.core with
      | some s => (.scalar s, .ok ())
      | none => (slot, .error (mismatch place kind.text source)) := by
  have hnull : ¬ source.isNull = true := by simp [h]
  cases kind with
  | bool =>
    rewrite [value, if_neg hnull]
    rfl
  | integer =>
    rewrite [value, if_neg hnull]
    rfl
  | float =>
    rewrite [value, if_neg hnull]
    rfl
  | string =>
    rewrite [value, if_neg hnull]
    rfl
  | _ => exact hkind.elim

theorem value_mapping {entries : List (String × Node)} (h : source.core = .mapping entries) :
    value .mapping source slot place = (.mapping entries, .ok ()) := by
  have hnull : ¬ source.isNull = true := by simp [Node.isNull, h]
  rw [value, if_neg hnull, h]

theorem value_mapping_mismatch (hnull : source.isNull = false)
    (h : ∀ entries, source.core ≠ .mapping entries) :
    value .mapping source slot place =
      (slot, .error (mismatch place Kind.mapping.text source)) := by
  rw [value, if_neg (by simp [hnull])]
  split
  · rename_i entries hentries
    exact absurd hentries (h entries)
  · rfl

theorem value_mapping_cases (hnull : source.isNull = false) :
    (∃ entries, source.core = .mapping entries) ∨
      ∀ slot place, value .mapping source slot place =
        (slot, .error (mismatch place Kind.mapping.text source)) := by
  by_cases hentries : ∃ entries, source.core = .mapping entries
  · exact .inl hentries
  · exact .inr fun _ _ => value_mapping_mismatch hnull fun entries he => hentries ⟨entries, he⟩

theorem value_sequence {items : List Node} (h : source.core = .sequence items) (item : Kind) :
    value (.sequence item) source slot place =
      match sequence item items place 0 with
      | .ok decoded => (.sequence decoded, .ok ())
      | .error e => (slot, .error e) := by
  have hnull : ¬ source.isNull = true := by simp [Node.isNull, h]
  rw [value, if_neg hnull]
  split
  · rename_i items' hitems
    rw [h] at hitems
    cases hitems
    rfl
  · rename_i hitems
    exact absurd h (hitems items)

theorem value_sequence_mismatch (hnull : source.isNull = false)
    (h : ∀ items, source.core ≠ .sequence items) (item : Kind) :
    value (.sequence item) source slot place =
      (slot, .error (mismatch place (Kind.sequence item).text source)) := by
  rw [value, if_neg (by simp [hnull])]
  split
  · rename_i items hitems
    exact absurd hitems (h items)
  · rfl

theorem value_sequence_cases (hnull : source.isNull = false) (item : Kind) :
    (∃ items, source.core = .sequence items) ∨
      ∀ slot place, value (.sequence item) source slot place =
        (slot, .error (mismatch place (Kind.sequence item).text source)) := by
  by_cases hitems : ∃ items, source.core = .sequence items
  · exact .inl hitems
  · exact .inr fun _ _ =>
      value_sequence_mismatch hnull (fun items hi => hitems ⟨items, hi⟩) item

theorem value_optional (h : source.isNull = false) (inner : Kind) :
    value (.optional inner) source slot place =
      match value inner source inner.zero place with
      | (decoded, .ok ()) => (.indirect decoded, .ok ())
      | (_, .error e) => (slot, .error e) := by
  rewrite [value, if_neg (by simp [h])]
  rfl

/-- A slot is kept if it holds a record of a type of that name, else it gives way to a fresh one. -/
theorem recordFor_cases (type : RecordType) (slot : Node) :
    (∃ other held, slot.core = .record other held ∧ other.name = type.name ∧
        recordFor type slot = slot) ∨
      recordFor type slot = type.zero := by
  unfold recordFor
  split
  · rename_i other held hrecord
    split
    · rename_i hname
      refine .inl ⟨other, held, ?_, hname, rfl⟩
      unfold Node.record? at hrecord
      split at hrecord
      · rename_i hcore
        cases hrecord
        exact hcore
      · cases hrecord
    · exact .inr rfl
  · exact .inr rfl

theorem recordFor_of_name {type other : RecordType} {held : List (String × Node)}
    (h : slot.core = .record other held) (hname : other.name = type.name) :
    recordFor type slot = slot := by
  have hrecord : slot.record? = some (other, held) := by rw [Node.record?, h]
  rw [recordFor, hrecord]
  exact if_pos hname

/-- Either way there is a record to fill. -/
theorem exists_recordFor (type : RecordType) (slot : Node) :
    ∃ filled held, (recordFor type slot).core = .record filled held := by
  rcases recordFor_cases type slot with ⟨other, held, hcore, _, heq⟩ | heq
  · exact ⟨other, held, by rw [heq, hcore]⟩
  · exact ⟨_, _, by rw [heq]; rfl⟩

/-- The record to fill is of a type of the declared name. -/
theorem name_of_recordFor {type filled : RecordType} {held : List (String × Node)}
    (h : (recordFor type slot).core = .record filled held) : filled.name = type.name := by
  rcases recordFor_cases type slot with ⟨other, fields, hcore, hname, heq⟩ | heq
  · rw [heq, hcore] at h
    cases h
    exact hname
  · rw [heq] at h
    cases h
    rfl

theorem value_ofFields (h : source.isNull = false) {name : String}
    {declared : List (String × Kind)} {type : RecordType} {held : List (String × Node)}
    (hslot : (recordFor ⟨name, declared⟩ slot).core = .record type held) :
    value (.record name declared) source slot place =
      ((recordFor ⟨name, declared⟩ slot).withCore
          (.record type (record source.core type held place).1),
        (record source.core type held place).2) := by
  rw [value, if_neg (by simp [h])]
  dsimp only
  rw [hslot]

theorem value_any (h : source.isNull = false) :
    value .any source slot place = into source slot place := by
  rw [value, if_neg (by simp [h])]

end Value

/-! ## The items of a sequence -/

theorem sequence_nil (item : Kind) (place : Place) (index : Nat) :
    sequence item [] place index = .ok [] := by
  rw [sequence]

theorem sequence_cons (item : Kind) (source : Node) (rest : List Node) (place : Place)
    (index : Nat) :
    sequence item (source :: rest) place index =
      match value item source item.zero (place ++ [.item index]) with
      | (_, .error e) => .error e
      | (decoded, .ok ()) =>
        match sequence item rest place (index + 1) with
        | .ok more => .ok (decoded :: more)
        | .error e => .error e := by
  rewrite [sequence]
  rfl

/-- A sequence that is decoded has its first item decoded, and then the others. -/
theorem sequence_cons_ok {item : Kind} {source : Node} {rest decoded : List Node} {place : Place}
    {index : Nat} (h : sequence item (source :: rest) place index = .ok decoded) :
    ∃ first more, value item source item.zero (place ++ [.item index]) = (first, .ok ()) ∧
      sequence item rest place (index + 1) = .ok more ∧ decoded = first :: more := by
  rw [sequence_cons] at h
  cases hfirst : value item source item.zero (place ++ [.item index]) with
  | mk first result =>
    rw [hfirst] at h
    cases result with
    | error e => cases h
    | ok _ =>
      cases hrest : sequence item rest place (index + 1) with
      | error e =>
        rw [hrest] at h
        cases h
      | ok more =>
        rw [hrest] at h
        cases h
        exact ⟨first, more, rfl, rfl, rfl⟩

/-! ## A slot without a declared kind -/

section Into

variable {source slot : Node} {place : Place}

theorem into_of_record {type : RecordType} {held : List (String × Node)}
    (h : slot.core = .record type held) (hnull : source.isNull = false) :
    into source slot place =
      (slot.withCore (.record type (record source.core type held place).1),
        (record source.core type held place).2) := by
  rw [into, h]
  dsimp only
  rw [if_neg (by simp [hnull])]

theorem into_of_record_null {type : RecordType} {held : List (String × Node)}
    (h : slot.core = .record type held) (hnull : source.isNull = true) :
    into source slot place = (slot, .ok ()) := by
  rw [into, h]
  dsimp only
  rw [if_pos hnull]

theorem into_of_mappings {entries values : List (String × Node)}
    (h : slot.core = .mapping entries) (hsource : source.core = .mapping values) :
    into source slot place =
      (slot.withCore (.mapping (merge values entries place).1),
        (merge values entries place).2) := by
  rw [into, h]
  dsimp only
  split
  · rename_i values' hvalues
    rw [hsource] at hvalues
    cases hvalues
    rfl
  · rename_i hvalues
    exact absurd hsource (hvalues values)

/-- Everything else gives way to the source. -/
theorem into_of_other (hrecord : ∀ type held, slot.core ≠ .record type held)
    (hmapping : ∀ entries values, slot.core = .mapping entries → source.core ≠ .mapping values) :
    into source slot place = (slot.withCore source.core, .ok ()) := by
  rw [into]
  split
  · rename_i type held h
    exact absurd h (hrecord type held)
  · rename_i entries h
    split
    · rename_i values hvalues
      exact absurd hvalues (hmapping entries values h)
    · rfl
  · rfl

/-- What becomes of a slot: a record in it is filled, unless the source is null, a mapping in it is
merged with a mapping, and everything else gives way. -/
theorem into_cases (source slot : Node) :
    (∃ type held, slot.core = .record type held ∧ source.isNull = true ∧
        ∀ place, into source slot place = (slot, .ok ())) ∨
      (∃ type held, slot.core = .record type held ∧ source.isNull = false ∧
        ∀ place, into source slot place =
          (slot.withCore (.record type (record source.core type held place).1),
            (record source.core type held place).2)) ∨
      (∃ held values, slot.core = .mapping held ∧ source.core = .mapping values ∧
        ∀ place, into source slot place =
          (slot.withCore (.mapping (merge values held place).1), (merge values held place).2)) ∨
      ∀ place, into source slot place = (slot.withCore source.core, .ok ()) := by
  by_cases hrecord : ∃ type held, slot.core = .record type held
  · obtain ⟨type, held, h⟩ := hrecord
    cases hnull : source.isNull with
    | true => exact .inl ⟨type, held, h, rfl, fun _ => into_of_record_null h hnull⟩
    | false => exact .inr (.inl ⟨type, held, h, rfl, fun _ => into_of_record h hnull⟩)
  · by_cases hmapping : ∃ held values, slot.core = .mapping held ∧ source.core = .mapping values
    · obtain ⟨held, values, h, hsource⟩ := hmapping
      exact .inr (.inr (.inl ⟨held, values, h, hsource, fun _ => into_of_mappings h hsource⟩))
    · exact .inr (.inr (.inr fun _ => into_of_other (fun type held h => hrecord ⟨type, held, h⟩)
        fun held values h hsource => hmapping ⟨held, values, h, hsource⟩))

theorem merge_nil (entries : List (String × Node)) :
    merge [] entries place = (entries, .ok ()) := by
  rw [merge]

theorem merge_cons_none {key : String} {entries : List (String × Node)}
    (h : Entries.get? key entries = none) (rest : List (String × Node)) :
    merge ((key, source) :: rest) entries place =
      merge rest (Entries.put key source entries) place := by
  rw [merge, h]

theorem merge_cons_some {key : String} {entries : List (String × Node)}
    (h : Entries.get? key entries = some slot) (rest : List (String × Node)) :
    merge ((key, source) :: rest) entries place =
      match into source slot (place ++ [.member key]) with
      | (decoded, .ok ()) => merge rest (Entries.put key decoded entries) place
      | (decoded, .error e) => (Entries.put key decoded entries, .error e) := by
  rewrite [merge, h]
  rfl

end Into

/-! ## A slot that holds a record -/

theorem into_record (source : Node) (type : RecordType) (held : List (String × Node))
    (place : Place) :
    into source (.record type held) place =
      if source.isNull then (.record type held, .ok ())
      else
        (.record type (record source.core type held place).1,
          (record source.core type held place).2) := by
  rw [into]
  rfl

/-- A slot that is declared with a record type and holds a record of a type of that name is filled
as one that is not declared. -/
theorem value_record (source : Node) (name : String) (fields : List (String × Kind))
    (type : RecordType) (hname : type.name = name) (held : List (String × Node)) (place : Place) :
    value (.record name fields) source (.record type held) place =
      into source (.record type held) place := by
  have hslot : recordFor ⟨name, fields⟩ (.record type held) = .record type held :=
    recordFor_of_name rfl hname
  rw [value, into_record]
  split
  · rfl
  · rw [hslot]
    rfl

/-- A fresh record is filled from the source, unless that is null. -/
theorem value_zero_record {source : Node} (h : source.isNull = false) {name : String}
    {declared : List (String × Kind)} (hd : Entries.Distinct declared) (place : Place) :
    value (.record name declared) source (Kind.record name declared).zero place =
      (.record ⟨name, declared⟩
          (record source.core ⟨name, declared⟩ (Kind.zeroFields declared) place).1,
        (record source.core ⟨name, declared⟩ (Kind.zeroFields declared) place).2) := by
  rw [Kind.zero_record hd, value_record source name declared ⟨name, declared⟩ rfl, into_record,
    if_neg (by simp [h])]

theorem record_of_hasMembers {source : Node} (h : hasMembers source = true) (type : RecordType)
    (held : List (String × Node)) (place : Place) :
    record source type held place = fields source type type.fields held place := by
  rw [record, if_pos h]

theorem value_any_record (source : Node) (type : RecordType) (held : List (String × Node))
    (place : Place) :
    value .any source (.record type held) place = into source (.record type held) place := by
  rw [value, into_record]
  split <;> rfl

/-- A null leaves a document alone, so the root is like any other slot that holds a record. -/
theorem decodeInto_record (source : Node) (type : RecordType) (held : List (String × Node)) :
    decodeInto source (.record type held) = into source (.record type held) [] := by
  unfold decodeInto
  split
  · rename_i hnull
    rw [into_record, if_pos hnull]
  · rfl

/-! ## The fields of a record -/

section Fields

variable {source : Node} {type : RecordType} {held : List (String × Node)} {place : Place}

theorem fields_nil : fields source type [] held place = (held, .ok ()) := by
  rw [fields]

/-- What a field holds before it is decoded; one that is missing is made afresh. -/
def slotOf (type : RecordType) (name : String) (held : List (String × Node)) : Node :=
  match Entries.get? name held with
  | some slot => slot
  | none => ((type.kind? name).map Kind.zero).getD .null

theorem fields_cons_none {name : String} (h : lookup source name = none) (kind : Kind)
    (rest : List (String × Kind)) :
    fields source type ((name, kind) :: rest) held place = fields source type rest held place := by
  rw [fields]
  split
  · rfl
  · rename_i hm
    rw [h] at hm
    cases hm

/-- A field that the source has is decoded, and the others follow unless that fails. -/
theorem fields_cons_some {name : String} {member : Node} (h : lookup source name = some member)
    (kind : Kind) (rest : List (String × Kind)) :
    fields source type ((name, kind) :: rest) held place =
      match value kind member (slotOf type name held) (place ++ [.member name]) with
      | (decoded, .ok ()) => fields source type rest (Entries.put name decoded held) place
      | (decoded, .error e) => (Entries.put name decoded held, .error e) := by
  rw [fields]
  split
  · rename_i hm
    rw [h] at hm
    cases hm
  · rename_i member' hm
    rw [h] at hm
    cases hm
    rfl

theorem fields_append (xs ys : List (String × Kind)) :
    fields source type (xs ++ ys) held place =
      match fields source type xs held place with
      | (decoded, .ok ()) => fields source type ys decoded place
      | (decoded, .error e) => (decoded, .error e) := by
  induction xs generalizing held with
  | nil => rw [List.nil_append, fields_nil]
  | cons x xs ih =>
    obtain ⟨name, kind⟩ := x
    rw [List.cons_append]
    cases hl : lookup source name with
    | none => rw [fields_cons_none hl, fields_cons_none hl, ih]
    | some member =>
      rw [fields_cons_some hl, fields_cons_some hl]
      cases value kind member (slotOf type name held) (place ++ [.member name]) with
      | mk decoded result =>
        cases result with
        | error e => rfl
        | ok _ => exact ih

/-- A record whose fields are there keeps its keys. -/
theorem keys_fields {todo : List (String × Kind)}
    (h : ∀ e ∈ todo, e.1 ∈ Entries.keys held) :
    Entries.keys (fields source type todo held place).1 = Entries.keys held := by
  induction todo generalizing held with
  | nil => rw [fields_nil]
  | cons x rest ih =>
    obtain ⟨name, kind⟩ := x
    have hrest : ∀ e ∈ rest, e.1 ∈ Entries.keys held :=
      fun e he => h e (List.mem_cons_of_mem _ he)
    cases hl : lookup source name with
    | none =>
      rw [fields_cons_none hl]
      exact ih hrest
    | some member =>
      have hkeys (decoded : Node) :
          Entries.keys (Entries.put name decoded held) = Entries.keys held :=
        Entries.keys_put_of_mem (h _ List.mem_cons_self) decoded
      rw [fields_cons_some hl]
      cases value kind member (slotOf type name held) (place ++ [.member name]) with
      | mk decoded result =>
        cases result with
        | error e => exact hkeys decoded
        | ok _ =>
          rw [← hkeys decoded]
          exact ih fun e he => (hkeys decoded).symm ▸ hrest e he

/-- Fields of other names do not change the value under a key. -/
theorem get?_fields {key : String} {todo : List (String × Kind)}
    (htodo : key ∉ Entries.keys todo) :
    Entries.get? key (fields source type todo held place).1 = Entries.get? key held := by
  induction todo generalizing held with
  | nil => rw [fields_nil]
  | cons x rest ih =>
    obtain ⟨name, kind⟩ := x
    simp only [Entries.keys, List.map_cons, List.mem_cons, not_or] at htodo
    cases hl : lookup source name with
    | none =>
      rw [fields_cons_none hl]
      exact ih htodo.2
    | some member =>
      have hget (decoded : Node) :
          Entries.get? key (Entries.put name decoded held) = Entries.get? key held := by
        rw [Entries.get?_put, if_neg (Ne.symm htodo.1)]
      rw [fields_cons_some hl]
      cases value kind member (slotOf type name held) (place ++ [.member name]) with
      | mk decoded result =>
        cases result with
        | error e => exact hget decoded
        | ok _ =>
          rw [← hget decoded]
          exact ih htodo.2

/-- Fields of other names do not see the value under a key, nor how that key is declared. -/
theorem fields_put {type' : RecordType} {key : String} (other : Node)
    {todo : List (String × Kind)} (htypes : ∀ name, name ≠ key → type'.kind? name = type.kind? name)
    (hkey : key ∈ Entries.keys held) (htodo : key ∉ Entries.keys todo) :
    fields source type' todo (Entries.put key other held) place =
      (Entries.put key other (fields source type todo held place).1,
        (fields source type todo held place).2) := by
  induction todo generalizing held with
  | nil => rw [fields_nil, fields_nil]
  | cons x rest ih =>
    obtain ⟨name, kind⟩ := x
    simp only [Entries.keys, List.map_cons, List.mem_cons, not_or] at htodo
    cases hl : lookup source name with
    | none =>
      rw [fields_cons_none hl, fields_cons_none hl]
      exact ih hkey htodo.2
    | some member =>
      have hslot : slotOf type' name (Entries.put key other held) = slotOf type name held := by
        unfold slotOf
        rw [Entries.get?_put, if_neg htodo.1, htypes name (Ne.symm htodo.1)]
      rw [fields_cons_some hl, fields_cons_some hl, hslot]
      cases value kind member (slotOf type name held) (place ++ [.member name]) with
      | mk decoded result =>
        have hcomm := Entries.put_comm htodo.1 hkey other decoded
        cases result with
        | error e =>
          dsimp only
          rw [hcomm]
        | ok _ =>
          have hkey' : key ∈ Entries.keys (Entries.put name decoded held) := by
            rw [Entries.keys_put]
            split
            · exact hkey
            · exact List.mem_append_left _ hkey
          dsimp only
          rw [hcomm]
          exact ih hkey' htodo.2

end Fields

end Polydoc.Decode

namespace Polydoc

/-- A record is decoded into as into a slot that is declared with its type. -/
theorem decodeInto_eq_value (source : Node) (type : RecordType) (held : List (String × Node)) :
    decodeInto source (.record type held) =
      Decode.value (.ofType type) source (.record type held) [] := by
  rw [Decode.decodeInto_record, Kind.ofType, Decode.value_record source _ _ type rfl]

/-- A fresh record is decoded into as a fresh value of the kind that holds its type. -/
theorem decodeInto_zero (source : Node) (t : RecordType) :
    decodeInto source t.zero = Decode.value (.ofType t) source (Kind.ofType t).zero [] := by
  rw [RecordType.zero, Kind.ofType, Kind.zero]
  exact decodeInto_eq_value source t _

/-- Once a type is assigned, the outcome is that of the decoder. -/
theorem Resolver.decode_of_assign {r : Resolver} {source target assigned : Node} {applied : Bool}
    (h : r.assign source target = (assigned, .ok applied)) :
    r.decode source target = ((decodeInto source assigned).1,
      ((decodeInto source assigned).2.mapError Failure.decode).map fun _ => applied) := by
  unfold Resolver.decode
  rw [h]
  dsimp only
  cases decodeInto source assigned with
  | mk decoded result => cases result <;> rfl

end Polydoc
