/-
  Proofs/Decode/Transparency.lean --- decoding and resolving do not see indirect layers.

  Two runs are compared: on sources that are the same value, and on targets that are.  Each step
  answers the same in both and leaves targets that are the same value again, whether it succeeds or
  fails, so the whole runs do.
-/
import Polydoc.Proofs.Decode.Steps
import Polydoc.Proofs.Node.Layers
import Polydoc.Proofs.Resolver.Congruence
import Polydoc.Resolver.Decode

set_option autoImplicit false

namespace Polydoc

namespace Decode

open Node

/-- Whatever is the same value as the source is decoded as the source is, into slots that are the
same value. -/
structure Transparent (source : Node) : Prop where
  into : ∀ {other slot slot' : Node}, source.SameValue other → slot.SameValue slot' →
    ∀ (place : Place), SameUpTo SameValue (into source slot place) (into other slot' place)
  value : ∀ {other slot slot' : Node}, source.SameValue other → slot.SameValue slot' →
    ∀ (kind : Kind) (place : Place),
      SameUpTo SameValue (value kind source slot place) (value kind other slot' place)

/-! ## Looking at a source -/

section Sources

variable {c d : Node}

theorem lookup_same (h : SameCore c d) (name : String) :
    Option.Rel SameValue (lookup c name) (lookup d name) := by
  cases h with
  | null => exact .none
  | scalar s => exact .none
  | sequence items => exact .none
  | mapping entries => exact entries.find? name
  | record type fields => exact fields.find? name

theorem hasMembers_eq (h : SameCore c d) : hasMembers c = hasMembers d := by
  cases h <;> rfl

theorem scalarFor_eq (h : SameCore c d) (kind : Kind) : scalarFor kind c = scalarFor kind d := by
  cases h with
  | null => rfl
  | scalar s => rfl
  | sequence items => cases kind <;> rfl
  | mapping entries => cases kind <;> rfl
  | record type fields => cases kind <;> rfl

theorem mismatch_eq {source other : Node} (h : source.SameValue other) (place : Place)
    (expected : String) : mismatch place expected source = mismatch place expected other := by
  rw [mismatch, mismatch, h.kindName_eq]

theorem recordFor_same {slot slot' : Node} (h : slot.SameValue slot') (type : RecordType) :
    (recordFor type slot).SameValue (recordFor type slot') := by
  have hcore := h.core
  unfold recordFor record?
  generalize slot.core = c at hcore ⊢
  generalize slot'.core = d at hcore ⊢
  cases hcore with
  | null => rfl
  | scalar s => rfl
  | sequence items => rfl
  | mapping entries => rfl
  | record held fields =>
    dsimp only
    split
    · exact h
    · rfl

theorem slotOf_same {held held' : List (String × Node)} (h : SameEntries held held')
    (type : RecordType) (name : String) :
    (slotOf type name held).SameValue (slotOf type name held') := by
  unfold slotOf
  rcases rel_cases (h.get? name) with ⟨hx, hy⟩ | ⟨slot, slot', hx, hy, hsame⟩
  · rw [hx, hy]
    rfl
  · rw [hx, hy]
    exact hsame

end Sources

/-! ## Items, fields and entries -/

section Lists

variable {place : Place}

theorem sequence_same {item : Kind} {items : List Node}
    (transparent : ∀ source ∈ items, Transparent source) :
    ∀ {others : List Node} (_ : SameItems items others) (index : Nat),
      (sequence item items place index).map unwrappedItems =
        (sequence item others place index).map unwrappedItems := by
  induction items with
  | nil =>
    intro others h index
    cases others with
    | nil => rfl
    | cons other rest => cases h
  | cons source rest ih =>
    intro others h index
    cases others with
    | nil => cases h
    | cons other rest' =>
      obtain ⟨hfirst, hrest⟩ := List.cons.inj h
      -- an item is decoded into a fresh slot, which is one and the same in both runs
      have hzero : item.zero.SameValue item.zero := rfl
      have hvalue := (transparent source List.mem_cons_self).value hfirst hzero item
        (place ++ [.item index])
      have hmore := ih (fun s hs => transparent s (List.mem_cons_of_mem _ hs)) hrest (index + 1)
      rw [sequence_cons, sequence_cons]
      obtain ⟨n, n', result, hx, hy, hn⟩ := hvalue.exists_eq
      rw [hx, hy]
      cases result with
      | error e => rfl
      | ok _ =>
        rcases map_eq_map_cases hmore with ⟨more, more', hu, hv, htail⟩ | ⟨e, hu, hv⟩
        · have hcons : unwrappedItems (n :: more) = unwrappedItems (n' :: more') := by
            rw [unwrappedItems, unwrappedItems, hn, htail]
          rw [hu, hv]
          exact congrArg Except.ok hcons
        · rw [hu, hv]

theorem fields_same {source other : Node} {type : RecordType}
    (members : ∀ name, Option.Rel SameValue (lookup source name) (lookup other name))
    (transparent : ∀ name member, lookup source name = some member → Transparent member)
    {todo : List (String × Kind)} :
    ∀ {held held' : List (String × Node)}, SameEntries held held' →
      SameUpTo SameEntries (fields source type todo held place)
        (fields other type todo held' place) := by
  induction todo with
  | nil =>
    intro held held' h
    rw [fields_nil, fields_nil]
    exact ⟨h, rfl⟩
  | cons e rest ih =>
    intro held held' h
    obtain ⟨name, kind⟩ := e
    rcases rel_cases (members name) with ⟨hl, hl'⟩ | ⟨member, member', hl, hl', hsame⟩
    · rw [fields_cons_none hl, fields_cons_none hl']
      exact ih h
    · have hvalue := (transparent name member hl).value hsame (slotOf_same h type name) kind
        (place ++ [.member name])
      rw [fields_cons_some hl, fields_cons_some hl']
      obtain ⟨n, n', result, hx, hy, hn⟩ := hvalue.exists_eq
      rw [hx, hy]
      cases result with
      | error e => exact ⟨h.put name hn, rfl⟩
      | ok _ => exact ih (h.put name hn)

theorem record_same {c d : Node} (h : SameCore c d)
    (transparent : ∀ name member, lookup c name = some member → Transparent member)
    (type : RecordType) {held held' : List (String × Node)} (hheld : SameEntries held held') :
    SameUpTo SameEntries (record c type held place) (record d type held' place) := by
  unfold record
  rw [hasMembers_eq h]
  split
  · exact fields_same (lookup_same h) transparent hheld
  · exact ⟨hheld, congrArg Except.error (mismatch_eq h.sameValue place type.name)⟩

theorem merge_same {values : List (String × Node)}
    (transparent : ∀ e ∈ values, Transparent e.2) :
    ∀ {others entries entries' : List (String × Node)}, SameEntries values others →
      SameEntries entries entries' →
        SameUpTo SameEntries (merge values entries place) (merge others entries' place) := by
  induction values with
  | nil =>
    intro others entries entries' h hentries
    cases others with
    | nil =>
      rw [merge_nil, merge_nil]
      exact ⟨hentries, rfl⟩
    | cons other rest => cases h
  | cons first rest ih =>
    intro others entries entries' h hentries
    cases others with
    | nil => cases h
    | cons other rest' =>
      obtain ⟨key, source⟩ := first
      obtain ⟨key', source'⟩ := other
      obtain ⟨hfirst, hrest⟩ := List.cons.inj h
      obtain ⟨rfl, hsource⟩ := Prod.mk.inj hfirst
      have hmore {next next' : List (String × Node)} (hnext : SameEntries next next') :
          SameUpTo SameEntries (merge rest next place) (merge rest' next' place) :=
        ih (fun e he => transparent e (List.mem_cons_of_mem _ he)) hrest hnext
      rcases rel_cases (hentries.get? key) with ⟨hget, hget'⟩ | ⟨slot, slot', hget, hget', hsame⟩
      · rw [merge_cons_none hget, merge_cons_none hget']
        exact hmore (hentries.put key hsource)
      · have hinto := (transparent _ List.mem_cons_self).into hsource hsame
          (place ++ [.member key])
        rw [merge_cons_some hget, merge_cons_some hget']
        obtain ⟨n, n', result, hx, hy, hn⟩ := hinto.exists_eq
        rw [hx, hy]
        cases result with
        | error e => exact ⟨hentries.put key hn, rfl⟩
        | ok _ => exact hmore (hentries.put key hn)

end Lists

/-! ## All sources -/

section Smaller

variable {source other slot slot' : Node}
  (smaller : ∀ n : Node, sizeOf n < sizeOf source → Transparent n)

include smaller

theorem record_core_same (hs : source.SameValue other) (type : RecordType)
    {held held' : List (String × Node)} (hheld : SameEntries held held') (place : Place) :
    SameUpTo SameEntries (record source.core type held place)
      (record other.core type held' place) :=
  record_same hs.core (fun _ member hl => smaller member (sizeOf_member_lt hl)) type hheld

theorem into_same (hs : source.SameValue other) (h : slot.SameValue slot') (place : Place) :
    SameUpTo SameValue (into source slot place) (into other slot' place) := by
  -- layers around the slot stay, so what is written stands below those of each slot
  have hsource := hs.core
  have hslot := h.core
  by_cases hrecord : ∃ type held, slot.core = .record type held
  · obtain ⟨type, held, hr⟩ := hrecord
    obtain ⟨held', hr', hheld⟩ := hslot.record_of_eq hr
    cases hnull : source.isNull with
    | true =>
      rw [into_of_record_null hr hnull, into_of_record_null hr' (hs.isNull_eq ▸ hnull)]
      exact ⟨h, rfl⟩
    | false =>
      obtain ⟨hfilled, hresult⟩ := record_core_same smaller hs type hheld place
      rw [into_of_record hr hnull, into_of_record hr' (hs.isNull_eq ▸ hnull)]
      exact ⟨(SameCore.record type hfilled).withCore slot slot', hresult⟩
  · have hother : ∀ type held, slot.core ≠ .record type held :=
      fun type held hr => hrecord ⟨type, held, hr⟩
    have hother' : ∀ type held, slot'.core ≠ .record type held := by
      intro type held hr
      obtain ⟨held', hr', _⟩ := hslot.symm.record_of_eq hr
      exact hother type held' hr'
    by_cases hmapping : ∃ held values, slot.core = .mapping held ∧ source.core = .mapping values
    · obtain ⟨held, values, hm, hv⟩ := hmapping
      obtain ⟨held', hm', hheld⟩ := hslot.mapping_of_eq hm
      obtain ⟨values', hv', hvalues⟩ := hsource.mapping_of_eq hv
      have hmerge : SameUpTo SameEntries (merge values held place) (merge values' held' place) :=
        merge_same (fun e he => smaller e.2 (sizeOf_entry_lt hv he)) hvalues hheld
      rw [into_of_mappings hm hv, into_of_mappings hm' hv']
      exact ⟨(SameCore.mapping hmerge.1).withCore slot slot', hmerge.2⟩
    · have hne : ∀ held values, slot.core = .mapping held → source.core ≠ .mapping values :=
        fun held values hm hv => hmapping ⟨held, values, hm, hv⟩
      have hne' : ∀ held values, slot'.core = .mapping held → other.core ≠ .mapping values := by
        intro held values hm hv
        obtain ⟨held', hm', _⟩ := hslot.symm.mapping_of_eq hm
        obtain ⟨values', hv', _⟩ := hsource.symm.mapping_of_eq hv
        exact hne held' values' hm' hv'
      rw [into_of_other hother hne, into_of_other hother' hne']
      exact ⟨hsource.withCore slot slot', rfl⟩

theorem value_record_same (hs : source.SameValue other) (hnull : source.isNull = false)
    (h : slot.SameValue slot') (name : String) (declared : List (String × Kind)) (place : Place) :
    SameUpTo SameValue (value (.record name declared) source slot place)
      (value (.record name declared) other slot' place) := by
  obtain ⟨type, held, hcore⟩ := exists_recordFor ⟨name, declared⟩ slot
  obtain ⟨held', hcore', hheld⟩ :=
    (recordFor_same h ⟨name, declared⟩).core.record_of_eq hcore
  obtain ⟨hfilled, hresult⟩ := record_core_same smaller hs type hheld place
  rw [value_ofFields hnull hcore, value_ofFields (hs.isNull_eq ▸ hnull) hcore']
  exact ⟨(SameCore.record type hfilled).withCore _ _, hresult⟩

theorem value_sequence_same (hs : source.SameValue other) (hnull : source.isNull = false)
    (h : slot.SameValue slot') (item : Kind) (place : Place) :
    SameUpTo SameValue (value (.sequence item) source slot place)
      (value (.sequence item) other slot' place) := by
  by_cases hitems : ∃ items, source.core = .sequence items
  · obtain ⟨items, hi⟩ := hitems
    obtain ⟨items', hi', hsame⟩ := hs.core.sequence_of_eq hi
    have hdecoded : (sequence item items place 0).map unwrappedItems =
        (sequence item items' place 0).map unwrappedItems :=
      sequence_same (fun n hn => smaller n (sizeOf_item_lt hi hn)) hsame 0
    rw [value_sequence hi, value_sequence hi']
    rcases map_eq_map_cases hdecoded with ⟨decoded, decoded', hx, hy, hitems⟩ | ⟨e, hx, hy⟩
    · rw [hx, hy]
      exact ⟨congrArg Node.sequence hitems, rfl⟩
    · rw [hx, hy]
      exact ⟨h, rfl⟩
  · have hne : ∀ items, source.core ≠ .sequence items := fun items hi => hitems ⟨items, hi⟩
    have hne' : ∀ items, other.core ≠ .sequence items := by
      intro items hi
      obtain ⟨items', hi', _⟩ := hs.core.symm.sequence_of_eq hi
      exact hne items' hi'
    rw [value_sequence_mismatch hnull hne, value_sequence_mismatch (hs.isNull_eq ▸ hnull) hne']
    exact ⟨h, congrArg Except.error (mismatch_eq hs place _)⟩

omit smaller in
theorem value_mapping_same (hs : source.SameValue other) (hnull : source.isNull = false)
    (h : slot.SameValue slot') (place : Place) :
    SameUpTo SameValue (value .mapping source slot place) (value .mapping other slot' place) := by
  by_cases hentries : ∃ entries, source.core = .mapping entries
  · obtain ⟨entries, he⟩ := hentries
    obtain ⟨entries', he', hsame⟩ := hs.core.mapping_of_eq he
    rw [value_mapping he, value_mapping he']
    exact ⟨congrArg Node.mapping hsame, rfl⟩
  · have hne : ∀ entries, source.core ≠ .mapping entries := fun entries he => hentries ⟨entries, he⟩
    have hne' : ∀ entries, other.core ≠ .mapping entries := by
      intro entries he
      obtain ⟨entries', he', _⟩ := hs.core.symm.mapping_of_eq he
      exact hne entries' he'
    rw [value_mapping_mismatch hnull hne, value_mapping_mismatch (hs.isNull_eq ▸ hnull) hne']
    exact ⟨h, congrArg Except.error (mismatch_eq hs place _)⟩

omit smaller in
theorem value_scalar_same (hs : source.SameValue other) (hnull : source.isNull = false)
    (h : slot.SameValue slot') (kind : Kind) (hkind : ScalarKind kind) (place : Place) :
    SameUpTo SameValue (value kind source slot place) (value kind other slot' place) := by
  rw [value_scalar hkind hnull, value_scalar hkind (hs.isNull_eq ▸ hnull), scalarFor_eq hs.core]
  cases scalarFor kind other.core with
  | some s => exact ⟨rfl, rfl⟩
  | none => exact ⟨h, congrArg Except.error (mismatch_eq hs place kind.text)⟩

/-- The kind of an optional field is decoded from the same source, so this goes by the kinds. -/
theorem value_same (hs : source.SameValue other) (kind : Kind) {slot slot' : Node}
    (h : slot.SameValue slot') (place : Place) :
    SameUpTo SameValue (value kind source slot place) (value kind other slot' place) := by
  cases hnull : source.isNull with
  | true =>
    rw [value_null hnull, value_null (hs.isNull_eq ▸ hnull)]
    exact ⟨h, rfl⟩
  | false =>
    cases kind with
    | bool => exact value_scalar_same hs hnull h .bool trivial place
    | integer => exact value_scalar_same hs hnull h .integer trivial place
    | float => exact value_scalar_same hs hnull h .float trivial place
    | string => exact value_scalar_same hs hnull h .string trivial place
    | any =>
      rw [value_any hnull, value_any (hs.isNull_eq ▸ hnull)]
      exact into_same smaller hs h place
    | mapping => exact value_mapping_same hs hnull h place
    | sequence item => exact value_sequence_same smaller hs hnull h item place
    | optional inner =>
      have hzero : inner.zero.SameValue inner.zero := rfl
      have hinner := value_same hs inner hzero place
      rw [value_optional hnull, value_optional (hs.isNull_eq ▸ hnull)]
      obtain ⟨decoded, decoded', result, hx, hy, hdecoded⟩ := hinner.exists_eq
      rw [hx, hy]
      cases result with
      | error e => exact ⟨h, rfl⟩
      | ok _ => exact ⟨hdecoded, rfl⟩
    | record name declared => exact value_record_same smaller hs hnull h name declared place

end Smaller

/-- No source is decoded by the layers in it. -/
theorem transparent (source : Node) : Transparent source := by
  induction hsize : sizeOf source using Nat.strongRecOn generalizing source with
  | _ size ih =>
    have smaller : ∀ n : Node, sizeOf n < sizeOf source → Transparent n :=
      fun n hlt => ih (sizeOf n) (hsize ▸ hlt) n rfl
    exact ⟨into_same smaller, fun hs h kind place => value_same smaller hs kind h place⟩

end Decode

open Node in
theorem decodeInto_same {source other target target' : Node} (hs : source.SameValue other)
    (ht : target.SameValue target') :
    SameUpTo SameValue (decodeInto source target) (decodeInto other target') := by
  unfold decodeInto
  rw [hs.isNull_eq]
  split
  · exact ⟨ht, rfl⟩
  · exact (Decode.transparent source).into hs ht []

/-! ## Resolving -/

namespace Resolver

open Node

variable {r : Resolver} {discriminator : Path} {types : TypeMap} {source other target target' : Node}

/-- A discriminator is compared below its layers. -/
theorem respects_sameValue (hr : r.strategy = .typeMap discriminator types) :
    r.strategy.Respects SameValue := by
  rw [hr]
  exact fun _ _ h => ⟨h.scalar?_eq, h.kindName_eq⟩

theorem assign_same (hr : r.strategy = .typeMap discriminator types)
    (hs : source.SameValue other) (ht : target.SameValue target') :
    SameUpTo SameValue (r.assign source target) (r.assign other target') :=
  assign_congr congruence_sameValue (respects_sameValue hr) (fun _ => rfl) hs ht

theorem decode_same (hr : r.strategy = .typeMap discriminator types)
    (hs : source.SameValue other) (ht : target.SameValue target') :
    SameUpTo SameValue (r.decode source target) (r.decode other target') := by
  have hassign := assign_same hr hs ht
  unfold decode
  obtain ⟨assigned, assigned', result, hx, hy, hassigned⟩ := hassign.exists_eq
  rw [hx, hy]
  cases result with
  | error e => exact ⟨hassigned, rfl⟩
  | ok applied =>
    have hdecode := decodeInto_same hs hassigned
    obtain ⟨decoded, decoded', outcome, hu, hv, hdecoded⟩ := hdecode.exists_eq
    dsimp only
    rw [hu, hv]
    cases outcome with
    | error e => exact ⟨hdecoded, rfl⟩
    | ok _ => exact ⟨hdecoded, rfl⟩

/-- **Indirect layers are transparent.**  Let two sources be the same value, and two targets.  A path
leads in both sources to nodes that are the same value, or fails with one error.  Assigning a type by
a type map, decoding, and doing both answer the same on either pair and leave targets that are the
same value, whether they succeed or fail.  And the sources have one JSON text. -/
theorem layers_transparent (hr : r.strategy = .typeMap discriminator types)
    (hs : source.SameValue other) (ht : target.SameValue target') :
    (∀ p, (source.at? p).map unwrapped = (other.at? p).map unwrapped) ∧
      SameUpTo SameValue (r.assign source target) (r.assign other target') ∧
      SameUpTo SameValue (decodeInto source target) (decodeInto other target') ∧
      SameUpTo SameValue (r.decode source target) (r.decode other target') ∧
      ∀ form, Json.write form source = Json.write form other :=
  ⟨hs.at?, assign_same hr hs ht, decodeInto_same hs ht, decode_same hr hs ht,
    Json.write_eq_of_sameValue hs⟩

/-- Layers around the discriminator, around what is decoded and around the slot. -/
theorem layers_transparent_pet :
    let horse : RecordType := ⟨"Horse", [("Shoes", .optional .integer)]⟩
    let r : Resolver := ⟨⟨[.name "pet"], true⟩, .strict,
      .typeMap ⟨[.name "kind"], true⟩ ⟨[(.string "horse", horse)]⟩⟩
    let shod : Node := .mapping [("Shoes", .indirect (.integer 4))]
    let source : Node := .mapping [("kind", .indirect (.string "horse")), ("pet", .indirect shod)]
    let other : Node :=
      .mapping [("kind", .string "horse"), ("pet", .mapping [("Shoes", .integer 4)])]
    let target : Node := .indirect (.mapping [("pet", .indirect .null)])
    let target' : Node := .mapping [("pet", .null)]
    r.choose source = .ok (.ok horse) ∧ source.SameValue other ∧ target.SameValue target' ∧
      (∀ p, (source.at? p).map unwrapped = (other.at? p).map unwrapped) ∧
      SameUpTo SameValue (r.assign source target) (r.assign other target') ∧
      SameUpTo SameValue (decodeInto source target) (decodeInto other target') ∧
      SameUpTo SameValue (r.decode source target) (r.decode other target') ∧
      ∀ form, Json.write form source = Json.write form other :=
  ⟨rfl, rfl, rfl, layers_transparent rfl rfl rfl⟩

end Resolver

end Polydoc
