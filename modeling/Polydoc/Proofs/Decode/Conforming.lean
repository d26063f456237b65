/-
  Proofs/Decode/Conforming.lean --- records keep conforming to their types, whatever is decoded into
  a document and whichever types are assigned to its open slots.

  A slot that is decoded into holds afterwards what fits its declared kind, or else what fits every
  kind that the slot fitted before: nothing is written by a step that fails.  Sources come without
  records, so what is copied from them is sound.
-/
import Polydoc.Proofs.Decode.Steps
import Polydoc.Proofs.Navigation.Overwriting
import Polydoc.Proofs.Node.Fitting

set_option autoImplicit false

namespace Polydoc

open Node

/-! ## Decoding -/

namespace Decode

theorem fits_of_scalarFor {kind : Kind} {n : Node} {s : Scalar} (h : scalarFor kind n = some s) :
    kind.Fits (.scalar s) := by
  unfold scalarFor at h
  split at h
  · cases h
    exact .bool _
  · cases h
    exact .integer _
  · split at h
    · cases h
      exact .integer _
    · cases h
  · cases h
    exact .float _
  · cases h
    exact .float _
  · cases h
    exact .string _
  · cases h

theorem part_of_lookup {source member : Node} {name : String}
    (h : lookup source name = some member) : Part member source := by
  have hmem {members : List (String × Node)} (hfind : Entries.find? name members = some member) :
      ∃ key, (key, member) ∈ members := by
    obtain ⟨key, _, hget⟩ := Option.bind_eq_some_iff.mp hfind
    exact ⟨key, Entries.mem_of_get? hget⟩
  unfold lookup at h
  split at h
  · obtain ⟨key, hkey⟩ := hmem h
    exact .entry hkey .here
  · obtain ⟨key, hkey⟩ := hmem h
    exact .field hkey .here
  · cases h

/-- Decoding from a source leaves a sound document sound, and a slot of a declared kind with what
fits that kind or with what fits as the slot did. -/
structure Keeps (source : Node) : Prop where
  into : ∀ (slot : Node) (place : Place), Kind.any.Fits slot →
    Kind.any.Fits (into source slot place).1
  value : ∀ (kind other : Kind) (slot : Node) (place : Place), other.Fits slot →
    other.Fits (value kind source slot place).1 ∨ kind.Fits (value kind source slot place).1

/-- What is decoded into a fresh value fits the kind. -/
theorem Keeps.value_zero {source : Node} (h : Keeps source) (kind : Kind) (place : Place) :
    kind.Fits (Decode.value kind source kind.zero place).1 :=
  (h.value kind kind kind.zero place kind.zero_fits).elim id id

section Lists

variable {place : Place}

theorem sequence_fits {item : Kind} {items : List Node} (keeps : ∀ source ∈ items, Keeps source) :
    ∀ (index : Nat) {decoded : List Node}, sequence item items place index = .ok decoded →
      ∀ n ∈ decoded, item.Fits n := by
  induction items with
  | nil =>
    intro index decoded h n hn
    rw [sequence_nil] at h
    cases h
    cases hn
  | cons source rest ih =>
    intro index decoded h n hn
    have hfirst := (keeps source List.mem_cons_self).value_zero item (place ++ [.item index])
    have hrest : ∀ s ∈ rest, Keeps s := fun s hs => keeps s (List.mem_cons_of_mem _ hs)
    obtain ⟨first, more, hv, hs, rfl⟩ := sequence_cons_ok h
    rw [hv] at hfirst
    rcases List.mem_cons.mp hn with rfl | hmore
    · exact hfirst
    · exact ih hrest (index + 1) hs n hmore

theorem fields_conform {source : Node} {type : RecordType}
    (keeps : ∀ name member, lookup source name = some member → Keeps member)
    {todo : List (String × Kind)} :
    ∀ {held : List (String × Node)}, (∀ e ∈ todo, e ∈ type.fields) → type.Conforms held →
      type.Conforms (fields source type todo held place).1 := by
  induction todo with
  | nil =>
    intro held _ hheld
    rw [fields_nil]
    exact hheld
  | cons e rest ih =>
    intro held htodo hheld
    obtain ⟨name, kind⟩ := e
    have hdeclared : (name, kind) ∈ type.fields := htodo _ List.mem_cons_self
    have hrest : ∀ e ∈ rest, e ∈ type.fields := fun e he => htodo e (List.mem_cons_of_mem _ he)
    cases hl : lookup source name with
    | none =>
      rw [fields_cons_none hl]
      exact ih hrest hheld
    | some member =>
      have hkey : name ∈ Entries.keys held := hheld.mem_keys_iff.mpr (List.mem_map_of_mem hdeclared)
      obtain ⟨slot, hslot⟩ := Entries.exists_get?_of_mem hkey
      obtain ⟨other, hother, hfits⟩ := hheld.values name slot (Entries.mem_of_get? hslot)
      -- the decoded value fits the declaration that is decoded now, or the one it fitted before
      have hput : type.Conforms
          (Entries.put name (value kind member slot (place ++ [.member name])).1 held) := by
        rcases (keeps name member hl).value kind other slot (place ++ [.member name]) hfits with
          hsame | hnew
        · exact hheld.put hother hsame
        · exact hheld.put hdeclared hnew
      have hslotOf : slotOf type name held = slot := by rw [slotOf, hslot]
      rw [fields_cons_some hl, hslotOf]
      cases hv : value kind member slot (place ++ [.member name]) with
      | mk decoded result =>
        rw [hv] at hput
        cases result with
        | error e => exact hput
        | ok _ => exact ih hrest hput

theorem record_conforms {source : Node} {type : RecordType} {held : List (String × Node)}
    (keeps : ∀ name member, lookup source name = some member → Keeps member)
    (h : type.Conforms held) : type.Conforms (record source type held place).1 := by
  unfold record
  split
  · exact fields_conform keeps (fun e he => he) h
  · exact h

theorem merge_sound {values : List (String × Node)} (keeps : ∀ e ∈ values, Keeps e.2)
    (hvalues : ∀ e ∈ values, Kind.any.Fits e.2) :
    ∀ {entries : List (String × Node)}, (∀ e ∈ entries, Kind.any.Fits e.2) →
      ∀ e ∈ (merge values entries place).1, Kind.any.Fits e.2 := by
  induction values with
  | nil =>
    intro entries hentries
    rw [merge_nil]
    exact hentries
  | cons first rest ih =>
    intro entries hentries
    obtain ⟨key, source⟩ := first
    have hput {n : Node} (hn : Kind.any.Fits n) :
        ∀ e ∈ Entries.put key n entries, Kind.any.Fits e.2 :=
      Entries.forall_mem_put hentries hn
    have hkeeps : ∀ e ∈ rest, Keeps e.2 := fun e he => keeps e (List.mem_cons_of_mem _ he)
    have hrest : ∀ e ∈ rest, Kind.any.Fits e.2 := fun e he => hvalues e (List.mem_cons_of_mem _ he)
    cases hget : Entries.get? key entries with
    | none =>
      rw [merge_cons_none hget]
      exact ih hkeeps hrest (hput (hvalues _ List.mem_cons_self))
    | some slot =>
      have hinto := (keeps _ List.mem_cons_self).into slot (place ++ [.member key])
        (hentries _ (Entries.mem_of_get? hget))
      rw [merge_cons_some hget]
      cases hi : into source slot (place ++ [.member key]) with
      | mk decoded result =>
        rw [hi] at hinto
        cases result with
        | error e => exact hput hinto
        | ok _ => exact ih hkeeps hrest (hput hinto)

end Lists

/-- Whatever stands inside a source keeps documents sound. -/
def KeepsInside (source : Node) : Prop :=
  ∀ n, Part n source → sizeOf n < sizeOf source → Keeps n

section Inside

variable {source : Node} (inside : KeepsInside source)

include inside

theorem KeepsInside.member {name : String} {member : Node}
    (h : lookup source.core name = some member) : Keeps member :=
  inside member ((part_of_lookup h).trans (part_core source)) (sizeOf_member_lt h)

theorem KeepsInside.entry {values : List (String × Node)} (h : source.core = .mapping values) :
    ∀ e ∈ values, Keeps e.2 :=
  fun e he => inside e.2 (part_of_entry h he) (sizeOf_entry_lt h he)

theorem KeepsInside.item {values : List Node} (h : source.core = .sequence values) :
    ∀ n ∈ values, Keeps n :=
  fun n hn => inside n (part_of_item h hn) (sizeOf_item_lt h hn)

/-- A slot that holds a record fits, once that is filled, as it did. -/
theorem KeepsInside.filled {kind : Kind} {slot : Node} {type : RecordType}
    {held : List (String × Node)} (place : Place) (hcore : slot.core = .record type held)
    (hslot : kind.Fits slot) :
    kind.Fits (slot.withCore (.record type (record source.core type held place).1)) := by
  have hmembers : ∀ name member, lookup source.core name = some member → Keeps member :=
    fun _ _ hl => inside.member hl
  exact hslot.withCore_record hcore (record_conforms hmembers (hslot.conforms hcore))

theorem into_sound (hsource : Kind.any.Fits source) {slot : Node} (place : Place)
    (hslot : Kind.any.Fits slot) : Kind.any.Fits (into source slot place).1 := by
  rcases into_cases source slot with
    ⟨_, _, _, _, heq⟩ | ⟨type, held, hr, _, heq⟩ | ⟨held, values, hm, hv, heq⟩ | heq
  · rw [heq]
    exact hslot
  · rw [heq]
    exact inside.filled place hr hslot
  · rw [heq]
    exact hslot.withCore_mapping hm
      (merge_sound (inside.entry hv) (hsource.entries_sound hv) (hslot.entries_sound hm))
  · rw [heq]
    exact hslot.any_withCore (hsource.part (part_core source))

/-- A slot that is declared with a record type: the record that is filled is the one in the slot, or
a fresh one. -/
theorem value_record_fits (hnull : source.isNull = false) (name : String)
    (declared : List (String × Kind)) {other : Kind} {slot : Node} (place : Place)
    (hslot : other.Fits slot) :
    other.Fits (value (.record name declared) source slot place).1 ∨
      (Kind.record name declared).Fits (value (.record name declared) source slot place).1 := by
  have hfilled {k : Kind} {type : RecordType} {held : List (String × Node)}
      (hcore : (recordFor ⟨name, declared⟩ slot).core = .record type held)
      (hk : k.Fits (recordFor ⟨name, declared⟩ slot)) :
      k.Fits (value (.record name declared) source slot place).1 := by
    rw [value_ofFields hnull hcore]
    exact inside.filled place hcore hk
  rcases recordFor_cases ⟨name, declared⟩ slot with ⟨type, held, hcore, _, heq⟩ | heq
  · rw [heq] at hfilled
    exact .inl (hfilled hcore hslot)
  · rw [heq] at hfilled
    exact .inr (hfilled rfl (Kind.zero_fits (.record name declared)))

theorem value_sequence_fits (hnull : source.isNull = false) (item : Kind) {other : Kind}
    {slot : Node} (place : Place) (hslot : other.Fits slot) :
    other.Fits (value (.sequence item) source slot place).1 ∨
      (Kind.sequence item).Fits (value (.sequence item) source slot place).1 := by
  rcases value_sequence_cases hnull item with ⟨items, hi⟩ | hmismatch
  · rw [value_sequence hi]
    cases hs : sequence item items place 0 with
    | error e => exact .inl hslot
    | ok decoded => exact .inr (.sequence (sequence_fits (inside.item hi) 0 hs))
  · rw [hmismatch]
    exact .inl hslot

omit inside in
theorem value_mapping_fits (hsource : Kind.any.Fits source) (hnull : source.isNull = false)
    {other : Kind} {slot : Node} (place : Place) (hslot : other.Fits slot) :
    other.Fits (value .mapping source slot place).1 ∨
      Kind.mapping.Fits (value .mapping source slot place).1 := by
  rcases value_mapping_cases hnull with ⟨entries, he⟩ | hmismatch
  · have hmapping : Kind.any.Fits (.mapping entries) :=
      Kind.fits_any_mapping_iff.mpr (hsource.entries_sound he)
    rw [value_mapping he]
    exact .inr (.mapping hmapping)
  · rw [hmismatch]
    exact .inl hslot

/-- What a slot of a declared kind holds afterwards.  The kind of an optional field is decoded from
the same source, so this goes by the kinds. -/
theorem value_fits (hsource : Kind.any.Fits source) (kind : Kind) {other : Kind} {slot : Node}
    (place : Place) (hslot : other.Fits slot) :
    other.Fits (value kind source slot place).1 ∨ kind.Fits (value kind source slot place).1 := by
  cases hnull : source.isNull with
  | true =>
    rw [value_null hnull]
    exact .inl hslot
  | false =>
    have hscalar {kind : Kind} (hkind : ScalarKind kind) :
        other.Fits (value kind source slot place).1 ∨
          kind.Fits (value kind source slot place).1 := by
      rw [value_scalar hkind hnull]
      cases hs : scalarFor kind source.core with
      | none => exact .inl hslot
      | some s => exact .inr (fits_of_scalarFor hs)
    cases kind with
    | bool => exact hscalar trivial
    | integer => exact hscalar trivial
    | float => exact hscalar trivial
    | string => exact hscalar trivial
    | any =>
      rw [value_any hnull]
      exact .inr (into_sound inside hsource place hslot.sound)
    | mapping => exact value_mapping_fits hsource hnull place hslot
    | sequence item => exact value_sequence_fits inside hnull item place hslot
    | optional inner =>
      have hinner : inner.Fits (value inner source inner.zero place).1 :=
        (value_fits hsource inner place inner.zero_fits).elim id id
      rw [value_optional hnull]
      cases hv : value inner source inner.zero place with
      | mk decoded result =>
        rw [hv] at hinner
        cases result with
        | error e => exact .inl hslot
        | ok _ => exact .inr (.present hinner)
    | record name declared => exact value_record_fits inside hnull name declared place hslot

end Inside

/-- A source without records keeps documents sound, and so does whatever stands inside it. -/
theorem keeps_of_recordFree {source : Node} (h : RecordFree source) : Keeps source := by
  induction hsize : sizeOf source using Nat.strongRecOn generalizing source with
  | _ size ih =>
    have inside : KeepsInside source :=
      fun n hpart hlt => ih (sizeOf n) (hsize ▸ hlt) (h.part hpart) rfl
    have hsource : Kind.any.Fits source := Kind.fits_of_recordFree h
    exact ⟨fun slot place hslot => into_sound inside hsource place hslot,
      fun kind other slot place hslot => value_fits inside hsource kind place hslot⟩

end Decode

theorem decodeInto_sound {source target : Node} (h : RecordFree source)
    (htarget : Kind.any.Fits target) : Kind.any.Fits (decodeInto source target).1 := by
  unfold decodeInto
  split
  · exact htarget
  · exact (Decode.keeps_of_recordFree h).into target [] htarget

end Polydoc
