/-
  Proofs/Node/Fitting.lean --- which values fit a declared kind, and which records conform to their
  type.

  A record conforms when it has one value for each name that its type declares, and each fits a kind
  declared under that name.  A document is sound, that is, it fits the kind `any`, when all records
  in it conform.  Values are changed at one place at a time; what is said here of layers, mappings
  and records tells when the whole still fits.
-/
import Polydoc.Proofs.Kind
import Polydoc.Proofs.Navigation.Place

set_option autoImplicit false

namespace Polydoc

namespace Node

/-! ## Parts of a document -/

/-- The first node is the second one or stands somewhere in it. -/
inductive Part (m : Node) : Node → Prop where
  | here : Part m m
  | item {n : Node} {items : List Node} (mem : n ∈ items) (inner : Part m n) :
      Part m (.sequence items)
  | entry {key : String} {n : Node} {entries : List (String × Node)} (mem : (key, n) ∈ entries)
      (inner : Part m n) : Part m (.mapping entries)
  | field {key : String} {n : Node} {type : RecordType} {held : List (String × Node)}
      (mem : (key, n) ∈ held) (inner : Part m n) : Part m (.record type held)
  | layer {n : Node} (inner : Part m n) : Part m (.indirect n)

theorem Part.trans {l m n : Node} (h : Part l m) (h' : Part m n) : Part l n := by
  induction h' with
  | here => exact h
  | item mem _ ih => exact .item mem ih
  | entry mem _ ih => exact .entry mem ih
  | field mem _ ih => exact .field mem ih
  | layer _ ih => exact .layer ih

theorem part_core (n : Node) : Part n.core n := by
  induction n using Node.core.induct with
  | case1 inner ih => exact .layer ih
  | case2 n h =>
    cases n with
    | indirect inner => exact absurd rfl (h inner)
    | _ => exact .here

/-! What stands below the layers of a node -/

theorem part_of_item {n item : Node} {items : List Node} (hcore : n.core = .sequence items)
    (h : item ∈ items) : Part item n :=
  (Part.item h .here).trans (hcore ▸ part_core n)

theorem part_of_entry {n : Node} {entries : List (String × Node)} {e : String × Node}
    (hcore : n.core = .mapping entries) (h : e ∈ entries) : Part e.2 n :=
  (Part.entry h .here).trans (hcore ▸ part_core n)

theorem part_of_field {n : Node} {type : RecordType} {held : List (String × Node)}
    {e : String × Node} (hcore : n.core = .record type held) (h : e ∈ held) : Part e.2 n :=
  (Part.field h .here).trans (hcore ▸ part_core n)

theorem part_of_stored? {n child : Node} {key : String} (h : n.stored? key = some child) :
    Part child n := by
  obtain ⟨members, hmembers, hget, _⟩ := store_eq h
  have hmem := Entries.mem_of_get? hget
  unfold members? at hmembers
  cases hn : n.core with
  | mapping entries =>
    rw [hn] at hmembers
    cases hmembers
    exact part_of_entry hn hmem
  | record type held =>
    rw [hn] at hmembers
    cases hmembers
    exact part_of_field hn hmem
  | _ =>
    rw [hn] at hmembers
    cases hmembers

/-- No record stands in a document. -/
def RecordFree (n : Node) : Prop :=
  ∀ type held, ¬ Part (.record type held) n

theorem RecordFree.part {m n : Node} (h : RecordFree n) (hp : Part m n) : RecordFree m :=
  fun type held hr => h type held (hr.trans hp)

theorem recordFree_scalar (s : Scalar) : RecordFree (.scalar s) := by
  intro type held h
  cases h

theorem recordFree_mapping {entries : List (String × Node)} (h : ∀ e ∈ entries, RecordFree e.2) :
    RecordFree (.mapping entries) := by
  intro type held hp
  cases hp with
  | entry mem inner => exact h _ mem type held inner

end Node

open Node

/-! ## Values that fit a kind -/

/-- A value fits a kind, and all records in it conform to their types: a record has one value for
each name that its type declares, in that order, and each fits a kind declared under its name. -/
inductive Kind.Fits : Kind → Node → Prop where
  | bool (b : Bool) : Fits .bool (.scalar (.bool b))
  | integer (i : Int64) : Fits .integer (.scalar (.integer i))
  | float (x : Binary64) : Fits .float (.scalar (.float x))
  | string (s : String) : Fits .string (.scalar (.string s))
  | any {n : Node} (records : ∀ name fields held, Part (.record ⟨name, fields⟩ held) n →
      Fits (.record name fields) (.record ⟨name, fields⟩ held)) : Fits .any n
  | mapping {entries : List (String × Node)} (sound : Fits .any (.mapping entries)) :
      Fits .mapping (.mapping entries)
  | sequence {item : Kind} {items : List Node} (each : ∀ n ∈ items, Fits item n) :
      Fits (.sequence item) (.sequence items)
  | absent {inner : Kind} : Fits (.optional inner) .null
  | present {inner : Kind} {n : Node} (value : Fits inner n) :
      Fits (.optional inner) (.indirect n)
  | record {name : String} {fields : List (String × Kind)} {held : List (String × Node)}
      (kindOf : String → Kind) (names : Entries.keys held = Entries.keys (Entries.ofList fields))
      (declared : ∀ key n, (key, n) ∈ held → (key, kindOf key) ∈ fields)
      (values : ∀ key n, (key, n) ∈ held → Fits (kindOf key) n) :
      Fits (.record name fields) (.record ⟨name, fields⟩ held)

/-- A record with these values conforms to its type: it has one value for each declared name, and
each fits a kind declared under its name. -/
structure RecordType.Conforms (type : RecordType) (held : List (String × Node)) : Prop where
  names : Entries.keys held = Entries.keys (Entries.ofList type.fields)
  values : ∀ key n, (key, n) ∈ held → ∃ kind, (key, kind) ∈ type.fields ∧ kind.Fits n

namespace Kind

theorem fits_record_iff {name : String} {fields : List (String × Kind)}
    {held : List (String × Node)} :
    (Kind.record name fields).Fits (.record ⟨name, fields⟩ held) ↔
      RecordType.Conforms ⟨name, fields⟩ held := by
  constructor
  · intro h
    cases h with
    | record kindOf names declared values =>
      exact ⟨names, fun key n hn => ⟨kindOf key, declared key n hn, values key n hn⟩⟩
  · intro h
    have hdistinct : Entries.Distinct held := by
      unfold Entries.Distinct
      rw [h.names]
      exact Entries.distinct_ofList fields
    -- a name has one value, so one kind can be chosen for it
    have hkinds : ∀ key, ∃ kind, ∀ n, (key, n) ∈ held → (key, kind) ∈ fields ∧ kind.Fits n := by
      intro key
      by_cases hkey : ∃ n, (key, n) ∈ held
      · obtain ⟨n, hn⟩ := hkey
        obtain ⟨kind, hkind⟩ := h.values key n hn
        refine ⟨kind, fun m hm => ?_⟩
        have hget := Entries.get?_of_mem hdistinct hm
        rw [Entries.get?_of_mem hdistinct hn] at hget
        cases hget
        exact hkind
      · exact ⟨.any, fun n hn => absurd ⟨n, hn⟩ hkey⟩
    obtain ⟨kindOf, hkindOf⟩ := Classical.skolem.mp hkinds
    exact .record kindOf h.names (fun key n hn => (hkindOf key n hn).1)
      fun key n hn => (hkindOf key n hn).2

/-! ## Sound documents -/

/-- A document is sound when every record in it conforms to its type. -/
theorem fits_any_iff {n : Node} :
    Kind.any.Fits n ↔ ∀ type held, Part (.record type held) n → type.Conforms held := by
  constructor
  · intro h type held hp
    cases h with
    | any records => exact fits_record_iff.1 (records _ _ _ hp)
  · intro h
    exact .any fun name fields held hp => fits_record_iff.2 (h _ _ hp)

theorem Fits.part {m n : Node} (h : Kind.any.Fits n) (hp : Part m n) : Kind.any.Fits m :=
  fits_any_iff.2 fun type held hr => fits_any_iff.1 h type held (hr.trans hp)

theorem fits_of_recordFree {n : Node} (h : RecordFree n) : Kind.any.Fits n :=
  fits_any_iff.2 fun type held hp => absurd hp (h type held)

theorem fits_any_mapping_iff {entries : List (String × Node)} :
    Kind.any.Fits (.mapping entries) ↔ ∀ e ∈ entries, Kind.any.Fits e.2 := by
  constructor
  · intro h e he
    exact h.part (.entry he .here)
  · intro h
    refine fits_any_iff.2 fun type held hp => ?_
    cases hp with
    | entry mem inner => exact fits_any_iff.1 (h _ mem) type held inner

/-- Whatever fits a kind is sound. -/
theorem Fits.sound {kind : Kind} {n : Node} (h : kind.Fits n) : Kind.any.Fits n := by
  induction h with
  | any records _ => exact .any records
  | mapping sound _ => exact sound
  | sequence each ih =>
    refine fits_any_iff.2 fun type held hp => ?_
    cases hp with
    | item mem inner => exact fits_any_iff.1 (ih _ mem) type held inner
  | present value ih =>
    refine fits_any_iff.2 fun type held hp => ?_
    cases hp with
    | layer inner => exact fits_any_iff.1 ih type held inner
  | record kindOf names declared values ih =>
    refine fits_any_iff.2 fun type held hp => ?_
    cases hp with
    | here => exact fits_record_iff.1 (.record kindOf names declared values)
    | field mem inner => exact fits_any_iff.1 (ih _ _ mem) type held inner
  | _ =>
    refine fits_any_iff.2 fun type held hp => ?_
    cases hp

/-! ## One place changed -/

/-- A mapping can be replaced by any sound one. -/
theorem Fits.mapping_of_sound {kind : Kind} {entries others : List (String × Node)}
    (h : kind.Fits (.mapping entries)) (hothers : ∀ e ∈ others, Kind.any.Fits e.2) :
    kind.Fits (.mapping others) := by
  have hsound : Kind.any.Fits (.mapping others) := fits_any_mapping_iff.2 hothers
  cases h with
  | any _ => exact hsound
  | mapping _ => exact .mapping hsound

/-- The values of a record can be replaced by any that conform to its type. -/
theorem Fits.record_of_conforms {kind : Kind} {type : RecordType}
    {held others : List (String × Node)} (h : kind.Fits (.record type held))
    (hothers : type.Conforms others) : kind.Fits (.record type others) := by
  cases h with
  | any _ => exact (fits_record_iff.2 hothers).sound
  | record _ _ _ _ => exact fits_record_iff.2 hothers

/-- The core can be replaced by what fits wherever the core did. -/
theorem Fits.withCore {kind : Kind} {n c : Node} (h : kind.Fits n)
    (hc : ∀ k : Kind, k.Fits n.core → k.Fits c) : kind.Fits (n.withCore c) := by
  induction n using Node.core.induct generalizing kind with
  | case1 inner ih =>
    cases h with
    | any records =>
      have hinner : Kind.any.Fits inner := Fits.part (.any records) (.layer .here)
      refine fits_any_iff.2 fun type held hp => ?_
      cases hp with
      | layer hp => exact fits_any_iff.1 (ih hinner hc) type held hp
    | present value => exact .present (ih value hc)
  | case2 n hn =>
    cases n with
    | indirect inner => exact absurd rfl (hn inner)
    | _ => exact hc kind h

/-! Below the layers of a node, a mapping and a record can be replaced as they are above. -/

section Core

variable {kind : Kind} {n : Node} {type : RecordType} {entries held others : List (String × Node)}

theorem Fits.entries_sound (h : kind.Fits n) (hcore : n.core = .mapping entries) :
    ∀ e ∈ entries, Kind.any.Fits e.2 := by
  have hpart : Part (.mapping entries) n := hcore ▸ part_core n
  exact fits_any_mapping_iff.1 (h.sound.part hpart)

theorem Fits.withCore_mapping (h : kind.Fits n) (hcore : n.core = .mapping entries)
    (hothers : ∀ e ∈ others, Kind.any.Fits e.2) : kind.Fits (n.withCore (.mapping others)) := by
  refine h.withCore fun k hk => ?_
  rw [hcore] at hk
  exact hk.mapping_of_sound hothers

theorem Fits.conforms (h : kind.Fits n) (hcore : n.core = .record type held) :
    type.Conforms held := by
  have hpart : Part (.record type held) n := hcore ▸ part_core n
  exact fits_any_iff.1 h.sound type held hpart

theorem Fits.withCore_record (h : kind.Fits n) (hcore : n.core = .record type held)
    (hothers : type.Conforms others) : kind.Fits (n.withCore (.record type others)) := by
  refine h.withCore fun k hk => ?_
  rw [hcore] at hk
  exact hk.record_of_conforms hothers

end Core

/-- Below the layers of a sound document anything sound may stand. -/
theorem Fits.any_withCore {n c : Node} (h : Kind.any.Fits n) (hc : Kind.any.Fits c) :
    Kind.any.Fits (n.withCore c) := by
  induction n using Node.core.induct with
  | case1 inner ih =>
    refine fits_any_iff.2 fun type held hp => ?_
    cases hp with
    | layer hp => exact fits_any_iff.1 (ih (h.part (.layer .here))) type held hp
  | case2 n hn =>
    cases n with
    | indirect inner => exact absurd rfl (hn inner)
    | _ => exact hc

end Kind

namespace RecordType

variable {type : RecordType} {held : List (String × Node)}

/-- A record has a value under a name exactly if its type declares the name. -/
theorem Conforms.mem_keys_iff (h : type.Conforms held) {key : String} :
    key ∈ Entries.keys held ↔ key ∈ Entries.keys type.fields := by
  rw [h.names]
  exact Entries.mem_keys_ofList

/-- A value under a declared name can be replaced by any that fits a kind declared for it. -/
theorem Conforms.put (h : type.Conforms held) {key : String} {kind : Kind}
    (hdeclared : (key, kind) ∈ type.fields) {n : Node} (hn : kind.Fits n) :
    type.Conforms (Entries.put key n held) where
  names := by
    have hkey : key ∈ Entries.keys held := h.mem_keys_iff.mpr (List.mem_map_of_mem hdeclared)
    rw [Entries.keys_put_of_mem hkey, h.names]
  values k m hm := by
    rcases Entries.mem_put hm with heq | hheld
    · cases heq
      exact ⟨kind, hdeclared, hn⟩
    · exact h.values k m hheld

/-- In a record of a type that declares no name twice, the value under a name fits the one kind
that is declared for it. -/
theorem Conforms.fits_declared (h : type.Conforms held) (hd : Entries.Distinct type.fields)
    {key : String} {kind : Kind} (hkind : type.kind? key = some kind) :
    ∃ n, Entries.get? key held = some n ∧ kind.Fits n := by
  have hmem : key ∈ Entries.keys held := h.mem_keys_iff.mpr (Entries.mem_keys_of_get? hkind)
  obtain ⟨n, hn⟩ := Entries.exists_get?_of_mem hmem
  obtain ⟨kind', hdeclared, hfits⟩ := h.values key n (Entries.mem_of_get? hn)
  have hsame : some kind' = some kind := by
    rw [← hkind]
    exact (Entries.get?_of_mem hd hdeclared).symm
  cases hsame
  exact ⟨n, hn, hfits⟩

end RecordType

/-! ## Zero values -/

namespace Kind

/-- The zero values of fields, one for each declaration. -/
theorem mem_zeroFields {key : String} {n : Node} {fields : List (String × Kind)}
    (h : (key, n) ∈ zeroFields fields) : ∃ kind, (key, kind) ∈ fields ∧ n = kind.zero := by
  induction fields with
  | nil => cases h
  | cons e rest ih =>
    obtain ⟨k, kind⟩ := e
    rw [zeroFields] at h
    rcases List.mem_cons.mp h with heq | hrest
    · cases heq
      exact ⟨kind, List.mem_cons_self, rfl⟩
    · obtain ⟨kind', hmem, hn⟩ := ih hrest
      exact ⟨kind', List.mem_cons_of_mem _ hmem, hn⟩

mutual

/-- A fresh value fits its kind. -/
theorem zero_fits : (kind : Kind) → kind.Fits kind.zero
  | .bool => .bool false
  | .integer => .integer 0
  | .float => .float _
  | .string => .string ""
  | .any => by
    refine fits_any_iff.2 fun type held hp => ?_
    cases hp
  | .optional _ => .absent
  | .mapping => by
    refine .mapping (fits_any_mapping_iff.2 fun e he => ?_)
    cases he
  | .sequence _ => by
    refine .sequence fun n hn => ?_
    cases hn
  | .record name fields => by
    have hfields := zero_fits_of_mem fields
    rw [zero]
    refine fits_record_iff.2 ⟨Entries.keys_ofList_congr (keys_zeroFields fields), ?_⟩
    intro key n hn
    obtain ⟨kind, hmem, rfl⟩ := mem_zeroFields (Entries.mem_of_mem_ofList hn)
    exact ⟨kind, hmem, hfields _ hmem⟩

theorem zero_fits_of_mem : (fields : List (String × Kind)) → ∀ e ∈ fields, e.2.Fits e.2.zero
  | [] => fun e he => by cases he
  | (key, kind) :: rest => by
    have hkind := zero_fits kind
    have hrest := zero_fits_of_mem rest
    intro e he
    rcases List.mem_cons.mp he with rfl | hmem
    · exact hkind
    · exact hrest e hmem

end

end Kind

end Polydoc
