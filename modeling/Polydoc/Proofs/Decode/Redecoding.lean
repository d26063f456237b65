/-
  Proofs/Decode/Redecoding.lean --- decoding what was written of a decoded document.

  What a source means as a value of a kind is written as a plain tree, and that tree means the same
  value again: numbers are of their declared kind by then, absent values are null, and each field
  stands under its very name.  So a decoded record is a fixed point of writing it out and decoding
  that into a fresh record.
-/
import Polydoc.Proofs.Decode.Denotation
import Polydoc.Proofs.Node.Plain

set_option autoImplicit false

namespace Polydoc

open Node

/-! ## Members of plain sources -/

theorem Node.Plain.members {source : Node} (h : Plain source) {members : List (String × Node)}
    (hm : source.members? = some members) : ∀ e ∈ members, Plain e.2 := by
  unfold members? at hm
  rw [h.core] at hm
  intro e he
  cases source with
  | mapping entries =>
    cases hm
    exact h.part (.entry he .here)
  | record type held => exact absurd .here (h.recordFree type held)
  | _ => cases hm

theorem mem_of_fieldMember? {members : List (String × Node)} {name : String} {member : Node}
    (h : fieldMember? members name = some member) : ∃ key, (key, member) ∈ members := by
  rw [← find?_eq_fieldMember?, Entries.find?, Option.bind_eq_some_iff] at h
  obtain ⟨key, _, hget⟩ := h
  exact ⟨key, Entries.mem_of_get? hget⟩

namespace Kind

/-! ## Meanings -/

section Meaning

variable {kind : Kind} {source v : Node}

theorem denote_of_isNull (h : source.isNull = true) : kind.denote source = some kind.zero := by
  rw [denote.eq_def, if_pos h]

/-- The meaning of a value that is not null is not null. -/
theorem isNull_of_denote : (kind : Kind) → ∀ {v : Node}, source.isNull = false →
    kind.denote source = some v → v.isNull = false := by
  intro kind v h hv
  have hnull : ¬ source.isNull = true := by simp [h]
  rw [denote.eq_def, if_neg hnull] at hv
  cases kind with
  | any =>
    cases hv
    rw [isNull, core_core]
    exact h
  | optional inner =>
    obtain ⟨w, hw, rfl⟩ := Option.map_eq_some_iff.mp hv
    have hinner : w.isNull = false := isNull_of_denote inner h hw
    exact hinner
  | sequence item =>
    dsimp only at hv
    split at hv
    · obtain ⟨vs, _, rfl⟩ := Option.map_eq_some_iff.mp hv
      rfl
    · cases hv
  | record name fields =>
    dsimp only at hv
    split at hv
    · obtain ⟨held, _, rfl⟩ := Option.map_eq_some_iff.mp hv
      rfl
    · cases hv
  | _ =>
    obtain ⟨w, _, rfl⟩ := Option.map_eq_some_iff.mp hv
    rfl

theorem keys_of_denoteFields {fields : List (String × Kind)} {members : List (String × Node)} :
    ∀ {held : List (String × Node)}, denoteFields fields members = some held →
      Entries.keys held = Entries.keys fields := by
  induction fields with
  | nil =>
    intro held h
    cases h
    rfl
  | cons e rest ih =>
    intro held h
    obtain ⟨name, kind⟩ := e
    rw [denoteFields, Option.bind_eq_some_iff] at h
    obtain ⟨w, _, h⟩ := h
    obtain ⟨more, hmore, rfl⟩ := Option.map_eq_some_iff.mp h
    exact congrArg (name :: ·) (ih hmore)

/-- Without members, all fields are zero. -/
theorem denoteFields_nil (fields : List (String × Kind)) :
    denoteFields fields [] = some (zeroFields fields) := by
  induction fields with
  | nil => rfl
  | cons e rest ih =>
    obtain ⟨name, kind⟩ := e
    rw [denoteFields, ih]
    rfl

end Meaning

/-! ## One value written and read again -/

section Again

variable {source v : Node}

/-- A scalar that is of the declared kind already stays as it is. -/
theorem scalarFor_scalar {kind : Kind} {n : Node} {s : Scalar}
    (h : Decode.scalarFor kind n = some s) : Decode.scalarFor kind (.scalar s) = some s := by
  unfold Decode.scalarFor at h
  split at h
  case h_3 =>
    split at h
    · cases h
      rfl
    · cases h
  all_goals cases h
  all_goals rfl

theorem denote_plain_scalar {kind : Kind} (hkind : Decode.ScalarKind kind)
    (h : kind.denote source = some v) : kind.denote v.plain = some v := by
  have hs : ∃ s, v = .scalar s ∧ Decode.scalarFor kind (.scalar s) = some s := by
    cases hnull : source.isNull with
    | true =>
      rw [denote_of_isNull hnull] at h
      cases h
      cases kind with
      | bool => exact ⟨_, rfl, rfl⟩
      | integer => exact ⟨_, rfl, rfl⟩
      | float => exact ⟨_, rfl, rfl⟩
      | string => exact ⟨_, rfl, rfl⟩
      | _ => exact hkind.elim
    | false =>
      rw [Decode.denote_scalar hkind hnull] at h
      obtain ⟨s, hs, rfl⟩ := Option.map_eq_some_iff.mp h
      exact ⟨s, rfl, scalarFor_scalar hs⟩
  obtain ⟨s, rfl, hs⟩ := hs
  rw [Decode.denote_scalar hkind rfl]
  exact congrArg (Option.map Node.scalar) hs

theorem denote_plain_any (hs : Plain source) (h : Kind.any.denote source = some v) :
    Kind.any.denote v.plain = some v := by
  cases hnull : source.isNull with
  | true =>
    rw [denote_of_isNull hnull] at h
    cases h
    exact denote_of_isNull rfl
  | false =>
    have hv := h
    rw [denote, if_neg (by simp [hnull]), hs.core] at hv
    cases hv
    rw [hs.plain_eq]
    exact h

theorem denote_plain_mapping (hs : Plain source) (h : Kind.mapping.denote source = some v) :
    Kind.mapping.denote v.plain = some v := by
  cases hnull : source.isNull with
  | true =>
    rw [denote_of_isNull hnull] at h
    cases h
    rfl
  | false =>
    have hv := h
    rw [denote, if_neg (by simp [hnull]), mapping?, hs.core] at hv
    cases source with
    | mapping entries =>
      cases hv
      rw [hs.plain_eq]
      exact h
    | _ => cases hv

/-- Items that are read again one by one are read again as a whole. -/
theorem mapM_plain {item : Kind} {items : List Node}
    (hitem : ∀ n ∈ items, ∀ w, item.denote n = some w → item.denote w.plain = some w) :
    ∀ {vs : List Node}, items.mapM item.denote = some vs →
      (plainItems vs).mapM item.denote = some vs := by
  induction items with
  | nil =>
    intro vs h
    cases h
    rfl
  | cons n rest ih =>
    intro vs h
    rw [List.mapM_cons] at h
    obtain ⟨w, hw, h⟩ := Option.bind_eq_some_iff.mp h
    obtain ⟨ws, hws, h⟩ := Option.bind_eq_some_iff.mp h
    cases h
    have hrest := ih (fun m hm => hitem m (List.mem_cons_of_mem _ hm)) hws
    rw [plainItems, List.mapM_cons, hitem n List.mem_cons_self w hw, hrest]
    rfl

theorem denote_plain_sequence {item : Kind} (hs : Plain source)
    (hitem : ∀ n, Plain n → ∀ w, item.denote n = some w → item.denote w.plain = some w)
    (h : (Kind.sequence item).denote source = some v) :
    (Kind.sequence item).denote v.plain = some v := by
  have hread {vs : List Node} (hvs : (plainItems vs).mapM item.denote = some vs) :
      (Kind.sequence item).denote (Node.sequence vs).plain = some (.sequence vs) := by
    rw [denote, if_neg (by simp [plain, isNull, Node.core]), plain]
    exact congrArg (Option.map Node.sequence) hvs
  cases hnull : source.isNull with
  | true =>
    rw [denote_of_isNull hnull] at h
    cases h
    exact hread rfl
  | false =>
    rw [denote, if_neg (by simp [hnull]), hs.core] at h
    cases source with
    | sequence items =>
      obtain ⟨vs, hvs, rfl⟩ := Option.map_eq_some_iff.mp h
      exact hread (mapM_plain (fun n hn => hitem n (hs.part (.item hn .here))) hvs)
    | _ => cases h

theorem denote_plain_optional {inner : Kind}
    (hinner : ∀ w, inner.denote source = some w → inner.denote w.plain = some w)
    (h : (Kind.optional inner).denote source = some v) :
    (Kind.optional inner).denote v.plain = some v := by
  cases hnull : source.isNull with
  | true =>
    rw [denote_of_isNull hnull] at h
    cases h
    exact denote_of_isNull rfl
  | false =>
    rw [denote, if_neg (by simp [hnull])] at h
    obtain ⟨w, hw, rfl⟩ := Option.map_eq_some_iff.mp h
    have hwnull : ¬ w.plain.isNull = true := by
      rw [isNull_plain, isNull_of_denote inner hnull hw]
      simp
    rw [plain, denote, if_neg hwnull, hinner w hw]
    rfl

/-- A record is read again if its fields are, with their values under the very names. -/
theorem denote_plain_record {name : String} {fields : List (String × Kind)} (hs : Plain source)
    (hd : Entries.Distinct fields)
    (hfields : ∀ members held others, (∀ e ∈ members, Plain e.2) →
      denoteFields fields members = some held →
      (∀ e ∈ held, fieldMember? others e.1 = some e.2.plain) →
        denoteFields fields others = some held)
    (h : (Kind.record name fields).denote source = some v) :
    (Kind.record name fields).denote v.plain = some v := by
  have hread {members held : List (String × Node)} (hm : ∀ e ∈ members, Plain e.2)
      (hheld : denoteFields fields members = some held) :
      (Kind.record name fields).denote (Node.record ⟨name, fields⟩ held).plain =
        some (.record ⟨name, fields⟩ held) := by
    have hdistinct : Entries.Distinct held := by
      unfold Entries.Distinct
      rw [keys_of_denoteFields hheld]
      exact hd
    have hagain := hfields members held (plainEntries held) hm hheld fun e he => by
      apply fieldMember?_of_get?
      rw [get?_plainEntries, Entries.get?_of_mem hdistinct he]
      rfl
    rw [denote, if_neg (by simp [plain, isNull, Node.core]), plain]
    exact congrArg (Option.map (Node.record ⟨name, fields⟩)) hagain
  cases hnull : source.isNull with
  | true =>
    rw [denote_of_isNull hnull, zero_record hd] at h
    cases h
    exact hread (fun _ he => absurd he List.not_mem_nil) (denoteFields_nil fields)
  | false =>
    rw [denote, if_neg (by simp [hnull])] at h
    cases hm : source.members? with
    | none =>
      rw [hm] at h
      cases h
    | some members =>
      rw [hm] at h
      obtain ⟨held, hheld, rfl⟩ := Option.map_eq_some_iff.mp h
      exact hread (hs.members hm) hheld

end Again

/-! ## All kinds -/

mutual

/-- The plain tree of a value that a plain source means, means this value. -/
theorem denote_plain : (kind : Kind) → kind.Distinct → ∀ (source : Node), Plain source →
    ∀ v, kind.denote source = some v → kind.denote v.plain = some v := by
  intro kind hd source hs v h
  cases kind with
  | bool => exact denote_plain_scalar (show Decode.ScalarKind .bool from trivial) h
  | integer => exact denote_plain_scalar (show Decode.ScalarKind .integer from trivial) h
  | float => exact denote_plain_scalar (show Decode.ScalarKind .float from trivial) h
  | string => exact denote_plain_scalar (show Decode.ScalarKind .string from trivial) h
  | any => exact denote_plain_any hs h
  | mapping => exact denote_plain_mapping hs h
  | sequence item => exact denote_plain_sequence hs (denote_plain item hd) h
  | optional inner => exact denote_plain_optional (denote_plain inner hd source hs) h
  | record name fields =>
    exact denote_plain_record hs hd.1 (denoteFields_plain fields hd.2) h

/-- Fields mean the same again wherever each finds the plain tree of its value. -/
theorem denoteFields_plain : (fields : List (String × Kind)) → FieldsDistinct fields →
    ∀ members held others, (∀ e ∈ members, Plain e.2) →
      denoteFields fields members = some held →
      (∀ e ∈ held, fieldMember? others e.1 = some e.2.plain) →
        denoteFields fields others = some held
  | [], _ => by
    intro members held others _ h _
    exact h
  | (name, kind) :: rest, hd => by
    intro members held others hm h hothers
    rw [denoteFields, Option.bind_eq_some_iff] at h
    obtain ⟨w, hw, h⟩ := h
    obtain ⟨more, hmore, rfl⟩ := Option.map_eq_some_iff.mp h
    -- a field without a member has the value that null means
    have hsource : ∃ member, Plain member ∧ kind.denote member = some w := by
      cases hf : fieldMember? members name with
      | none =>
        rw [hf] at hw
        exact ⟨.null, plain_null, (denote_of_isNull rfl).trans hw⟩
      | some member =>
        rw [hf] at hw
        obtain ⟨key, hkey⟩ := mem_of_fieldMember? hf
        exact ⟨member, hm _ hkey, hw⟩
    obtain ⟨member, hmember, hw⟩ := hsource
    have hfirst := denote_plain kind hd.1 member hmember w hw
    have hrest := denoteFields_plain rest hd.2 members more others hm hmore fun e he =>
      hothers e (List.mem_cons_of_mem _ he)
    rw [denoteFields, hothers (name, w) List.mem_cons_self, hrest]
    exact congrArg (Option.bind · _) hfirst

end

end Kind

/-! ## Decoding again -/

/-- **Decoding what was written gives the same record.**  Let a source without records and indirect
layers be decoded into a fresh record of a type that declares no name twice.  The tree that is
written for the result is again such a source, it has the text of the result, and it decodes into
the very same record. -/
theorem decodeInto_plain {t : RecordType} (h : t.Distinct) {source v : Node} (hs : Plain source)
    (hv : decodeInto source t.zero = (v, .ok ())) :
    decodeInto v.plain t.zero = (v, .ok ()) ∧ Plain v.plain ∧
      ∀ form, Json.write form v.plain = Json.write form v := by
  have hmeaning := (decodeInto_zero_ok_iff h).mp hv
  have hagain := Kind.denote_plain (.ofType t) h source hs v hmeaning
  exact ⟨(decodeInto_zero_ok_iff h).mpr hagain, plain_plain v,
    fun form => Json.write_plain form v⟩

/-- Fields that differ in letter case alone, a float that stands for an integer, a null item and
absent fields: the mapping that is written for the record is decoded into it again. -/
theorem decodeInto_plain_parcel :
    let parcel : RecordType := ⟨"Parcel", [("Id", .integer), ("id", .integer),
      ("note", .optional .string), ("owner", .record "Owner" [("name", .string)]),
      ("weights", .sequence .integer), ("extra", .any)]⟩
    let owner : RecordType := ⟨"Owner", [("name", .string)]⟩
    let source : Node := .mapping [("ID", .integer 7), ("id", .float (Binary64.ofInt 3)),
      ("note", .string "fragile"), ("weights", .sequence [.null, .integer 2]),
      ("extra", .mapping [("stamps", .sequence [.null])])]
    let v : Node := .record parcel [("Id", .integer 7), ("id", .integer 3),
      ("note", .indirect (.string "fragile")), ("owner", .record owner [("name", .string "")]),
      ("weights", .sequence [.integer 0, .integer 2]),
      ("extra", .mapping [("stamps", .sequence [.null])])]
    let written : Node := .mapping [("Id", .integer 7), ("id", .integer 3),
      ("note", .string "fragile"), ("owner", .mapping [("name", .string "")]),
      ("weights", .sequence [.integer 0, .integer 2]),
      ("extra", .mapping [("stamps", .sequence [.null])])]
    parcel.Distinct ∧ Plain source ∧ decodeInto source parcel.zero = (v, .ok ()) ∧
      v.plain = written ∧ decodeInto v.plain parcel.zero = (v, .ok ()) := by
  intro parcel owner source v written
  have hdistinct : parcel.Distinct := by
    simp [parcel, RecordType.Distinct, Kind.ofType, Kind.Distinct, Kind.FieldsDistinct,
      Entries.Distinct, Entries.keys]
  have hplain : Plain source := plain_plain source
  have hv : decodeInto source parcel.zero = (v, .ok ()) :=
    (decodeInto_zero_ok_iff hdistinct).mpr rfl
  exact ⟨hdistinct, hplain, hv, rfl, (decodeInto_plain hdistinct hplain hv).1⟩

end Polydoc
