/-
  Proofs/Decode/Idempotence.lean --- decoding the same source once more changes nothing.

  After a first run a slot may hold something else than before: a copy of the source where a null or
  a scalar stood, a fresh record where one of another type was.  So a second run takes other turns,
  and what it does in each slot is told by what the first one left there.  Fields of one name would
  be decoded into one slot one after another; hence the types have to declare each name once.
-/
import Polydoc.Proofs.Decode.Conforming
import Polydoc.Proofs.Decode.Copies
import Polydoc.Proofs.Decode.Slots

set_option autoImplicit false

namespace Polydoc

namespace Node

/-! ## Documents whose types declare each name once -/

/-- No type of a record in the document, nor any type within it, declares a field name twice. -/
def TypesDistinct (n : Node) : Prop :=
  ∀ type held, Part (.record type held) n → type.Distinct

theorem TypesDistinct.part {m n : Node} (h : TypesDistinct n) (hp : Part m n) : TypesDistinct m :=
  fun type held hr => h type held (hr.trans hp)

theorem typesDistinct_of_recordFree {n : Node} (h : RecordFree n) : TypesDistinct n :=
  fun type held hp => absurd hp (h type held)

theorem typesDistinct_null : TypesDistinct .null := by
  intro type held hp
  cases hp

theorem typesDistinct_record {type : RecordType} {held : List (String × Node)}
    (hd : type.Distinct) (h : ∀ e ∈ held, TypesDistinct e.2) :
    TypesDistinct (.record type held) := by
  intro other fields hp
  cases hp with
  | here => exact hd
  | field mem inner => exact h _ mem other fields inner

/-- The values of a record below the layers. -/
theorem TypesDistinct.held {n : Node} {type : RecordType} {held : List (String × Node)}
    (h : TypesDistinct n) (hcore : n.core = .record type held) :
    ∀ e ∈ held, TypesDistinct e.2 :=
  fun _ he => h.part (part_of_field hcore he)

theorem TypesDistinct.type {n : Node} {type : RecordType} {held : List (String × Node)}
    (h : TypesDistinct n) (hcore : n.core = .record type held) : type.Distinct :=
  h type held (hcore ▸ part_core n)

end Node

open Node

mutual

theorem Kind.typesDistinct_zero : (kind : Kind) → kind.Distinct → kind.zero.TypesDistinct
  | .record name fields, h => by
    rw [Kind.zero_record h.1]
    exact typesDistinct_record h (Kind.typesDistinct_zeroFields fields h.2)
  | .bool, _ => typesDistinct_of_recordFree (recordFree_scalar _)
  | .integer, _ => typesDistinct_of_recordFree (recordFree_scalar _)
  | .float, _ => typesDistinct_of_recordFree (recordFree_scalar _)
  | .string, _ => typesDistinct_of_recordFree (recordFree_scalar _)
  | .any, _ => typesDistinct_null
  | .mapping, _ => by
    intro type held hp
    cases hp with
    | entry mem _ => cases mem
  | .sequence item, _ => by
    intro type held hp
    cases hp with
    | item mem _ => cases mem
  | .optional inner, _ => typesDistinct_null

theorem Kind.typesDistinct_zeroFields : (fields : List (String × Kind)) →
    Kind.FieldsDistinct fields → ∀ e ∈ Kind.zeroFields fields, e.2.TypesDistinct
  | [], _, e, he => by cases he
  | (name, kind) :: rest, h, e, he => by
    have hfirst := Kind.typesDistinct_zero kind h.1
    have hrest := Kind.typesDistinct_zeroFields rest h.2
    rw [Kind.zeroFields] at he
    rcases List.mem_cons.mp he with rfl | he
    · exact hfirst
    · exact hrest e he

end

namespace Decode

theorem slotOf_typesDistinct {type : RecordType} {held : List (String × Node)}
    (hd : type.Distinct) (h : ∀ e ∈ held, TypesDistinct e.2) (name : String) :
    (slotOf type name held).TypesDistinct := by
  unfold slotOf
  split
  · rename_i slot hget
    exact h _ (Entries.mem_of_get? hget)
  · cases hkind : type.kind? name with
    | none => exact typesDistinct_null
    | some kind => exact kind.typesDistinct_zero (hd.2.get? hkind)

theorem recordFor_typesDistinct {type : RecordType} {slot : Node} (hd : type.Distinct)
    (h : slot.TypesDistinct) : (recordFor type slot).TypesDistinct := by
  rcases recordFor_cases type slot with ⟨_, _, _, _, heq⟩ | heq
  · rw [heq]
    exact h
  · rw [heq]
    exact Kind.typesDistinct_zero _ hd

/-! ## One source -/

/-- What a source leaves in a slot, it leaves as it is when it is decoded into it once more. -/
structure Repeats (source : Node) : Prop where
  into : ∀ {slot decoded : Node} {place : Place}, slot.TypesDistinct →
    into source slot place = (decoded, .ok ()) → into source decoded place = (decoded, .ok ())
  value : ∀ {kind : Kind} {slot decoded : Node} {place : Place}, kind.Distinct →
    slot.TypesDistinct → value kind source slot place = (decoded, .ok ()) →
      value kind source decoded place = (decoded, .ok ())

/-! ## The fields of a record -/

section Fields

variable {source : Node} {type : RecordType} {held decoded : List (String × Node)} {place : Place}

/-- Fields that leave what they are decoded into as it is change nothing. -/
theorem fields_fixed {todo : List (String × Kind)}
    (fixed : ∀ e ∈ todo, ∀ member, lookup source e.1 = some member →
      ∃ n, Entries.get? e.1 held = some n ∧
        value e.2 member n (place ++ [.member e.1]) = (n, .ok ())) :
    fields source type todo held place = (held, .ok ()) := by
  induction todo with
  | nil => exact fields_nil
  | cons first rest ih =>
    obtain ⟨name, kind⟩ := first
    have hrest := ih fun e he => fixed e (List.mem_cons_of_mem _ he)
    cases hl : lookup source name with
    | none => rw [fields_cons_none hl, hrest]
    | some member =>
      obtain ⟨n, hget, hvalue⟩ := fixed _ List.mem_cons_self member hl
      have hslot : slotOf type name held = n := by rw [slotOf, hget]
      rw [fields_cons_some hl, hslot, hvalue]
      dsimp only
      rw [Entries.put_of_get? hget, hrest]

theorem record_repeats (hd : type.Distinct) (hheld : ∀ e ∈ held, TypesDistinct e.2)
    (repeats : ∀ name member, lookup source name = some member → Repeats member)
    (h : record source type held place = (decoded, .ok ())) :
    record source type decoded place = (decoded, .ok ()) := by
  unfold record at h ⊢
  split at h
  · rename_i hmembers
    rw [if_pos hmembers]
    refine fields_fixed fun e he member hl => ?_
    -- each field has a slot of its own, so it finds there what it has left itself
    have hget : Entries.get? e.1 type.fields = some e.2 := Entries.get?_of_mem hd.1 he
    rcases fields_once (Entries.once_of_get? hd.1 hget) h with
      ⟨hnone, -⟩ | ⟨member', n, hl', hvalue, hn⟩
    · rw [hl] at hnone
      cases hnone
    · rw [hl] at hl'
      cases hl'
      exact ⟨n, hn, (repeats _ member hl).value (hd.2.get? hget)
        (slotOf_typesDistinct hd hheld e.1) hvalue⟩
  · cases h

end Fields

/-! ## The entries of a mapping -/

section Merge

variable {values entries decoded : List (String × Node)} {place : Place}

/-- Entries of other keys do not change the value under a key. -/
theorem get?_merge {key : String} (h : key ∉ Entries.keys values) :
    Entries.get? key (merge values entries place).1 = Entries.get? key entries := by
  induction values generalizing entries with
  | nil => rw [merge_nil]
  | cons first rest ih =>
    obtain ⟨k, source⟩ := first
    simp only [Entries.keys, List.map_cons, List.mem_cons, not_or] at h
    have hput (n : Node) : Entries.get? key (Entries.put k n entries) = Entries.get? key entries := by
      rw [Entries.get?_put, if_neg (Ne.symm h.1)]
    cases hget : Entries.get? k entries with
    | none =>
      rw [merge_cons_none hget, ← hput source]
      exact ih h.2
    | some slot =>
      rw [merge_cons_some hget]
      cases into source slot (place ++ [.member k]) with
      | mk n result =>
        cases result with
        | error e => exact hput n
        | ok _ =>
          rw [← hput n]
          exact ih h.2

/-- An entry whose key stands once is put where the key is new, and else is decoded into the value
that was there. -/
theorem merge_once {key : String} {source : Node} (once : Entries.Once key source values)
    (h : merge values entries place = (decoded, .ok ())) :
    (Entries.get? key entries = none ∧ Entries.get? key decoded = some source) ∨
      ∃ slot n, Entries.get? key entries = some slot ∧
        into source slot (place ++ [.member key]) = (n, .ok ()) ∧
        Entries.get? key decoded = some n := by
  obtain ⟨before, after, rfl, hbefore, hafter⟩ := once
  have hothers {values entries decoded : List (String × Node)} (hvalues : key ∉ Entries.keys values)
      (hm : merge values entries place = (decoded, .ok ())) :
      Entries.get? key decoded = Entries.get? key entries := by
    have hget : Entries.get? key (merge values entries place).1 = Entries.get? key entries :=
      get?_merge hvalues
    rw [hm] at hget
    exact hget
  rw [merge_append] at h
  cases hfirst : merge before entries place with
  | mk middle result =>
    rw [hfirst] at h
    cases result with
    | error e => cases h
    | ok _ =>
      dsimp only at h
      have hmiddle : Entries.get? key middle = Entries.get? key entries := hothers hbefore hfirst
      cases hget : Entries.get? key entries with
      | none =>
        rw [merge_cons_none (hmiddle.trans hget)] at h
        exact .inl ⟨rfl, by rw [hothers hafter h, Entries.get?_put, if_pos rfl]⟩
      | some slot =>
        rw [merge_cons_some (hmiddle.trans hget)] at h
        cases hinto : into source slot (place ++ [.member key]) with
        | mk n result =>
          rw [hinto] at h
          cases result with
          | error e => cases h
          | ok _ =>
            exact .inr ⟨slot, n, rfl, hinto,
              by rw [hothers hafter h, Entries.get?_put, if_pos rfl]⟩

theorem merge_repeats (hd : Entries.Distinct values)
    (hentries : ∀ e ∈ entries, TypesDistinct e.2) (settled : ∀ e ∈ values, Settled e.2)
    (repeats : ∀ e ∈ values, Repeats e.2)
    (h : merge values entries place = (decoded, .ok ())) :
    merge values decoded place = (decoded, .ok ()) := by
  refine merge_fixed fun e he => ?_
  have hget : Entries.get? e.1 values = some e.2 := Entries.get?_of_mem hd he
  rcases merge_once (Entries.once_of_get? hd hget) h with
    ⟨-, hnew⟩ | ⟨slot, n, hslot, hinto, hn⟩
  · exact ⟨e.2, hnew, settled e he _⟩
  · have hdistinct : slot.TypesDistinct := hentries _ (Entries.mem_of_get? hslot)
    exact ⟨n, hn, (repeats e he).into hdistinct hinto⟩

end Merge

/-! ## One slot -/

section Slot

variable {source slot decoded : Node} {place : Place}

/-- A parsed document that took the place of something is left as it is. -/
theorem into_copy (h : Parsed source) (slot : Node) (place : Place) :
    into source (slot.withCore source) place = (slot.withCore source, .ok ()) := by
  have hcore : source.core = source := h.plain.core
  have hthere : (slot.withCore source).core = source := core_withCore slot hcore
  rcases into_cases source (slot.withCore source) with
    ⟨type, held, hr, -, -⟩ | ⟨type, held, hr, -, -⟩ | ⟨held, values, hm, hv, hinto⟩ | hinto
  · exact absurd (hthere.symm.trans hr ▸ .here) (h.plain.recordFree type held)
  · exact absurd (hthere.symm.trans hr ▸ .here) (h.plain.recordFree type held)
  · have hsource : source = .mapping held := hthere.symm.trans hm
    subst hsource
    cases hv
    have hmerge : merge held held place = (held, .ok ()) :=
      merge_settled (fun e he => Entries.get?_of_mem (h.keyed held .here) he)
        fun e he => settled_of_parsed (h.part (.entry he .here))
    rw [hinto, hmerge, withCore_withCore slot hcore]
  · rw [hinto, withCore_withCore slot hcore, hcore]

section Smaller

variable (smaller : ∀ n : Node, sizeOf n < sizeOf source → Parsed n → Repeats n)

include smaller

theorem record_core_repeats (h : Parsed source) {type : RecordType}
    {held filled : List (String × Node)} (hd : type.Distinct)
    (hheld : ∀ e ∈ held, TypesDistinct e.2)
    (hrecord : record source.core type held place = (filled, .ok ())) :
    record source.core type filled place = (filled, .ok ()) := by
  refine record_repeats hd hheld (fun name member hl => ?_) hrecord
  exact smaller member (sizeOf_member_lt hl) (h.part ((part_of_lookup hl).trans (part_core source)))

theorem into_repeats (h : Parsed source) (hslot : slot.TypesDistinct)
    (hinto : into source slot place = (decoded, .ok ())) :
    into source decoded place = (decoded, .ok ()) := by
  rcases into_cases source slot with
    ⟨type, held, hr, hnull, heq⟩ | ⟨type, held, hr, hnull, heq⟩ | ⟨held, values, hm, hv, heq⟩ | heq
  · rw [heq] at hinto
    cases hinto
    exact heq place
  · rw [heq] at hinto
    cases hrecord : record source.core type held place with
    | mk filled result =>
      rw [hrecord] at hinto
      cases hinto
      have hcore : (slot.withCore (.record type filled)).core = .record type filled :=
        core_withCore slot (bare_record type filled)
      rw [into_of_record hcore hnull, record_core_repeats smaller h (hslot.type hr) (hslot.held hr)
        hrecord, withCore_withCore slot (bare_record type filled)]
  · rw [heq] at hinto
    cases hmerge : merge values held place with
    | mk merged result =>
      rw [hmerge] at hinto
      cases hinto
      have hvalues : ∀ e ∈ values, Parsed e.2 := fun e he => h.part (part_of_entry hv he)
      have hentries : ∀ e ∈ held, TypesDistinct e.2 :=
        fun e he => hslot.part (part_of_entry hm he)
      have hrepeat : merge values merged place = (merged, .ok ()) :=
        merge_repeats (h.keyed values (hv ▸ part_core source)) hentries
          (fun e he => settled_of_parsed (hvalues e he))
          (fun e he => smaller e.2 (sizeOf_entry_lt hv he) (hvalues e he)) hmerge
      have hcore : (slot.withCore (.mapping merged)).core = .mapping merged :=
        core_withCore slot (bare_mapping merged)
      rw [into_of_mappings hcore hv, hrepeat, withCore_withCore slot (bare_mapping merged)]
  · rw [heq] at hinto
    cases hinto
    rw [h.plain.core]
    exact into_copy h slot place

theorem value_record_repeats (h : Parsed source) (hnull : source.isNull = false) {name : String}
    {declared : List (String × Kind)} (hd : (Kind.record name declared).Distinct)
    (hslot : slot.TypesDistinct)
    (hvalue : value (.record name declared) source slot place = (decoded, .ok ())) :
    value (.record name declared) source decoded place = (decoded, .ok ()) := by
  obtain ⟨type, held, hcore⟩ := exists_recordFor ⟨name, declared⟩ slot
  have hname : type.name = name := name_of_recordFor hcore
  have hfilled : (recordFor ⟨name, declared⟩ slot).TypesDistinct :=
    recordFor_typesDistinct hd hslot
  rw [value_ofFields hnull hcore] at hvalue
  generalize recordFor ⟨name, declared⟩ slot = n at hcore hfilled hvalue
  cases hrecord : record source.core type held place with
  | mk filled result =>
    rw [hrecord] at hvalue
    cases hvalue
    have hleft : (n.withCore (.record type filled)).core = .record type filled :=
      core_withCore n (bare_record type filled)
    -- the record that was filled is of the declared name, so it is filled once more
    have hkept : recordFor ⟨name, declared⟩ (n.withCore (.record type filled)) =
        n.withCore (.record type filled) := recordFor_of_name hleft hname
    rw [value_ofFields hnull (hkept ▸ hleft), hkept,
      record_core_repeats smaller h (hfilled.type hcore) (hfilled.held hcore) hrecord,
      withCore_withCore n (bare_record type filled)]

end Smaller

/-- The kinds of slots that are written without a look at what they hold. -/
def Overwritten : Kind → Prop
  | .record _ _ => False
  | .any => False
  | _ => True

theorem value_overwritten {kind : Kind} (hkind : Overwritten kind) (hnull : source.isNull = false)
    (h : value kind source slot place = (decoded, .ok ())) (other : Node) :
    value kind source other place = (decoded, .ok ()) := by
  have hscalar (hk : ScalarKind kind) : value kind source other place = (decoded, .ok ()) := by
    rw [value_scalar hk hnull] at h ⊢
    cases hs : scalarFor kind source.core with
    | none => rw [hs] at h; cases h
    | some s => rw [hs] at h; exact h
  cases kind with
  | bool => exact hscalar trivial
  | integer => exact hscalar trivial
  | float => exact hscalar trivial
  | string => exact hscalar trivial
  | mapping =>
    rcases value_mapping_cases hnull with ⟨entries, he⟩ | hmismatch
    · rw [value_mapping he] at h ⊢
      exact h
    · rw [hmismatch] at h
      cases h
  | sequence item =>
    rcases value_sequence_cases hnull item with ⟨items, hi⟩ | hmismatch
    · rw [value_sequence hi] at h ⊢
      cases hs : sequence item items place 0 with
      | error e => rw [hs] at h; cases h
      | ok ns => rw [hs] at h; exact h
    · rw [hmismatch] at h
      cases h
  | optional inner =>
    rw [value_optional hnull] at h ⊢
    cases hv : value inner source inner.zero place with
    | mk n result =>
      rw [hv] at h
      cases result with
      | error e => cases h
      | ok _ => exact h
  | record name declared => exact hkind.elim
  | any => exact hkind.elim

end Slot

/-! ## All sources -/

theorem repeats {source : Node} (h : Parsed source) : Repeats source := by
  induction hsize : sizeOf source using Nat.strongRecOn generalizing source with
  | _ size ih =>
    have smaller : ∀ n : Node, sizeOf n < sizeOf source → Parsed n → Repeats n :=
      fun n hlt hn => ih (sizeOf n) (hsize ▸ hlt) hn rfl
    refine ⟨into_repeats smaller h, fun {kind slot decoded place} hd hslot hvalue => ?_⟩
    cases hnull : source.isNull with
    | true => exact value_null hnull kind
    | false =>
      by_cases hkind : Overwritten kind
      · exact value_overwritten hkind hnull hvalue decoded
      · cases kind with
        | record name declared => exact value_record_repeats smaller h hnull hd hslot hvalue
        | any =>
          rw [value_any hnull] at hvalue ⊢
          exact into_repeats smaller h hslot hvalue
        | _ => exact absurd trivial hkind

end Decode

/-- **Decoding is idempotent.**  The source is made of nulls, scalars, sequences and mappings, and no
type in the target declares a field name twice.  Whatever decoding leaves in the target, decoding the
same source into that succeeds and leaves it as it is. -/
theorem decodeInto_idempotent {source target decoded : Node} (hs : Node.Parsed source)
    (ht : target.TypesDistinct) (h : decodeInto source target = (decoded, .ok ())) :
    decodeInto source decoded = (decoded, .ok ()) := by
  unfold decodeInto at h ⊢
  split at h
  · rename_i hnull
    rw [if_pos hnull]
  · rename_i hnull
    rw [if_neg hnull]
    exact (Decode.repeats hs).into ht h

/-- A null that gives way to a copy, and a record of another type that gives way to a fresh one. -/
theorem decodeInto_idempotent_stable :
    let box : RecordType := ⟨"Box", [("Lid", .optional .integer)]⟩
    let stable : RecordType := ⟨"Stable", [("Pet", .any), ("Box", .ofType box)]⟩
    let pet : Node := .mapping [("legs", .integer 4)]
    let source : Node := .mapping [("Pet", pet), ("Box", .mapping [("Lid", .integer 1)])]
    let target : Node := .record stable [("Pet", .null), ("Box", .record ⟨"Crate", []⟩ [])]
    let decoded : Node := .record stable
      [("Pet", pet), ("Box", .record box [("Lid", .indirect (.integer 1))])]
    source.Parsed ∧ target.TypesDistinct ∧ decodeInto source target = (decoded, .ok ()) ∧
      decodeInto source decoded = (decoded, .ok ()) := by
  intro box stable pet source target decoded
  have hone (key : String) (i : Int64) : (Node.mapping [(key, .integer i)]).Parsed := by
    refine parsed_mapping (by simp [Entries.Distinct, Entries.keys]) fun e he => ?_
    cases List.mem_singleton.mp he
    exact parsed_scalar _
  have hsource : source.Parsed := by
    refine parsed_mapping (by simp [Entries.Distinct, Entries.keys]) fun e he => ?_
    simp only [List.mem_cons, List.not_mem_nil, or_false] at he
    rcases he with rfl | rfl
    · exact hone "legs" 4
    · exact hone "Lid" 1
  have hstable : stable.Distinct := by
    simp [stable, box, RecordType.Distinct, Kind.ofType, Kind.Distinct, Kind.FieldsDistinct,
      Entries.Distinct, Entries.keys]
  have htarget : target.TypesDistinct := by
    refine typesDistinct_record hstable fun e he => ?_
    simp only [List.mem_cons, List.not_mem_nil, or_false] at he
    rcases he with rfl | rfl
    · exact typesDistinct_null
    · refine typesDistinct_record ⟨.nil, trivial⟩ fun e he => ?_
      cases he
  have hdecode : decodeInto source target = (decoded, .ok ()) := by
    simp [source, target, decoded, pet, stable, box, decodeInto, Decode.into, Decode.record,
      Decode.fields, Decode.value, Decode.lookup, Decode.hasMembers, Decode.scalarFor,
      Decode.recordFor, Node.record?, RecordType.zero, Kind.zero, Kind.zeroFields, Kind.ofType,
      Entries.ofList, Entries.putAll, Entries.put, Entries.get?, Entries.find?, Entries.resolve?,
      core, isNull, withCore, Node.integer]
  exact ⟨hsource, htarget, hdecode, decodeInto_idempotent hsource htarget hdecode⟩

end Polydoc
