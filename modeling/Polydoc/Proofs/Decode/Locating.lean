/-
  Proofs/Decode/Locating.lean --- the error of a failed decoding names the value that does not fit.

  Where that value stands is said by two relations, one for slots that are declared with a kind and
  one for those that are not, over the slots as the failed run leaves them.  Each step of the place
  is a field by its declared name, a key or an item.  Every way in which the decoder can fail ends at
  such a value, and the steps to it are collected on the way back.
-/
import Polydoc.Proofs.Decode.Committing
import Polydoc.Proofs.Decode.PlaceText

set_option autoImplicit false

namespace Polydoc

namespace Decode

/-! ## Values that do not fit -/

/-- A value of the source that is itself what does not fit a slot: it means no value of a kind
without parts, or it is no sequence where one is declared. -/
inductive Unfit (source : Node) : Kind → Prop where
  | leaf {kind : Kind} (hkind : LeafKind kind) (meaningless : kind.denote source = none) :
      Unfit source kind
  | sequence {item : Kind} (hnull : source.isNull = false)
      (other : ∀ items, source.core ≠ .sequence items) : Unfit source (.sequence item)

mutual

/-- At the place inside the source, `v` does not fit what is expected in a slot of no declared kind.
The slot is given as the failed run leaves it: with the record or the mapping that it holds. -/
inductive Refuses : (source slot : Node) → Place → (v : Node) → (expected : String) → Prop where
  /-- a record is filled from members only -/
  | record {source slot : Node} {type : RecordType} {held : List (String × Node)}
      (holds : slot.core = .record type held) (hnull : source.isNull = false)
      (other : source.members? = none) : Refuses source slot [] source type.name
  | field {source slot inner member v : Node} {type : RecordType} {held : List (String × Node)}
      {members : List (String × Node)} {name expected : String} {kind : Kind} {place : Place}
      (holds : slot.core = .record type held) (has : source.members? = some members)
      (declares : (name, kind) ∈ type.fields) (hmember : fieldMember? members name = some member)
      (hslot : Entries.get? name held = some inner)
      (misfits : Misfits kind member inner place v expected) :
      Refuses source slot (.member name :: place) v expected
  | entry {source slot inner member v : Node} {held values : List (String × Node)}
      {key expected : String} {place : Place} (holds : slot.core = .mapping held)
      (has : source.core = .mapping values) (hmember : (key, member) ∈ values)
      (hslot : Entries.get? key held = some inner)
      (refuses : Refuses member inner place v expected) :
      Refuses source slot (.member key :: place) v expected

/-- At the place inside the source, `v` does not fit what is expected in a slot of a declared kind.
Items and optional values are decoded into slots of their own, which a failed run leaves behind. -/
inductive Misfits : Kind → (source slot : Node) → Place → (v : Node) → (expected : String) →
    Prop where
  | self {kind : Kind} {source slot : Node} (unfit : Unfit source kind) :
      Misfits kind source slot [] source kind.text
  | item {item : Kind} {source slot n v : Node} {items : List Node} {index : Nat} {place : Place}
      {expected : String} (has : source.core = .sequence items) (hitem : items[index]? = some n)
      (misfits : Misfits item n (value item n item.zero []).1 place v expected) :
      Misfits (.sequence item) source slot (.item index :: place) v expected
  | optional {inner : Kind} {source slot v : Node} {place : Place} {expected : String}
      (misfits : Misfits inner source (value inner source inner.zero []).1 place v expected) :
      Misfits (.optional inner) source slot place v expected
  | record {name : String} {fields : List (String × Kind)} {source slot v : Node}
      {type : RecordType} {held : List (String × Node)} {place : Place} {expected : String}
      (holds : slot.core = .record type held) (hname : type.name = name)
      (refuses : Refuses source slot place v expected) :
      Misfits (.record name fields) source slot place v expected
  | any {source slot v : Node} {place : Place} {expected : String}
      (refuses : Refuses source slot place v expected) :
      Misfits .any source slot place v expected

end

/-- An error tells the place of a value behind another place, what is expected there by `Wrong`, and
the kind of the value. -/
def Error.Locates (e : Error) (place : Place) (Wrong : Place → Node → String → Prop) : Prop :=
  ∃ inner v, e.place = place ++ inner ∧ e.found = v.kindName ∧ Wrong inner v e.expected

/-- Each failure to decode from a source is located. -/
structure Locating (source : Node) : Prop where
  into : ∀ {slot left : Node} {place : Place} {e : Error},
    into source slot place = (left, .error e) → e.Locates place (Refuses source left)
  value : ∀ {kind : Kind} {slot left : Node} {place : Place} {e : Error},
    value kind source slot place = (left, .error e) → e.Locates place (Misfits kind source left)

theorem Error.Locates.step {e : Error} {place : Place} {step : Step}
    {Wrong Outer : Place → Node → String → Prop} (h : e.Locates (place ++ [step]) Wrong)
    (houter : ∀ inner v expected, Wrong inner v expected → Outer (step :: inner) v expected) :
    e.Locates place Outer := by
  obtain ⟨inner, v, hplace, hfound, hwrong⟩ := h
  refine ⟨step :: inner, v, ?_, hfound, houter inner v _ hwrong⟩
  rw [hplace, List.append_assoc]
  rfl

theorem mismatch_core (place : Place) (expected : String) (source : Node) :
    mismatch place expected source.core = mismatch place expected source := by
  rw [mismatch, mismatch, Node.kindName, Node.kindName, Node.core_core]

theorem locates_mismatch {place : Place} {expected : String} {source : Node}
    {Wrong : Place → Node → String → Prop} (h : Wrong [] source expected) :
    (mismatch place expected source).Locates place Wrong :=
  ⟨[], source, (List.append_nil place).symm, rfl, h⟩

/-! ## Items, fields and entries -/

section Lists

variable {source : Node} {place : Place} {e : Error}

theorem sequence_eq_error {item : Kind} {items : List Node} {index : Nat}
    (h : sequence item items place index = .error e) :
    ∃ i n m, items[i]? = some n ∧
      value item n item.zero (place ++ [.item (index + i)]) = (m, .error e) := by
  induction items generalizing index with
  | nil =>
    rw [sequence_nil] at h
    cases h
  | cons first rest ih =>
    rw [sequence_cons] at h
    cases hv : value item first item.zero (place ++ [.item index]) with
    | mk decoded result =>
      rw [hv] at h
      cases result with
      | error e' =>
        cases h
        exact ⟨0, first, decoded, rfl, hv⟩
      | ok _ =>
        cases hrest : sequence item rest place (index + 1) with
        | ok more =>
          rw [hrest] at h
          cases h
        | error e' =>
          rw [hrest] at h
          cases h
          obtain ⟨i, n, m, hn, hm⟩ := ih hrest
          refine ⟨i + 1, n, m, hn, ?_⟩
          rw [← hm, Nat.add_assoc, Nat.add_comm 1 i]

theorem merge_eq_error {values entries left : List (String × Node)}
    (h : merge values entries place = (left, .error e)) :
    ∃ key member slot m, (key, member) ∈ values ∧ Entries.get? key left = some m ∧
      into member slot (place ++ [.member key]) = (m, .error e) := by
  induction values generalizing entries with
  | nil =>
    rw [merge_nil] at h
    cases h
  | cons first rest ih =>
    obtain ⟨key, member⟩ := first
    have hlater {entries : List (String × Node)} (h : merge rest entries place = (left, .error e)) :
        ∃ k n slot m, (k, n) ∈ (key, member) :: rest ∧ Entries.get? k left = some m ∧
          into n slot (place ++ [.member k]) = (m, .error e) := by
      obtain ⟨k, n, slot, m, hmem, hinto⟩ := ih h
      exact ⟨k, n, slot, m, List.mem_cons_of_mem _ hmem, hinto⟩
    cases hget : Entries.get? key entries with
    | none =>
      rw [merge_cons_none hget] at h
      exact hlater h
    | some slot =>
      rw [merge_cons_some hget] at h
      cases hinto : into member slot (place ++ [.member key]) with
      | mk decoded result =>
        rw [hinto] at h
        cases result with
        | ok _ => exact hlater h
        | error e' =>
          cases h
          refine ⟨key, member, slot, decoded, List.mem_cons_self, ?_, hinto⟩
          rw [Entries.get?_put, if_pos rfl]

/-- A slot for an item or for an optional value is left alike wherever it stands. -/
theorem left_of_value {kind : Kind} {slot left : Node} {result : Except Error Unit}
    (h : value kind source slot place = (left, result)) : left = (value kind source slot []).1 := by
  have hbehind := (relocates source).value kind slot place []
  rw [List.append_nil, h] at hbehind
  exact congrArg Prod.fst hbehind

end Lists

/-! ## All sources -/

section Smaller

variable {source : Node} (smaller : ∀ n : Node, sizeOf n < sizeOf source → Locating n)

include smaller

theorem record_locates {slot : Node} {type : RecordType} {held left : List (String × Node)}
    {place : Place} {e : Error} (hnull : source.isNull = false)
    (h : record source.core type held place = (left, .error e))
    (holds : slot.core = .record type left) : e.Locates place (Refuses source slot) := by
  cases hm : source.members? with
  | none =>
    have hmembers : ¬ hasMembers source.core = true := by simp [hasMembers_core, hm]
    rw [record, if_neg hmembers] at h
    cases h
    rw [mismatch_core]
    exact locates_mismatch (.record holds hnull hm)
  | some members =>
    have hmembers : hasMembers source.core = true := by simp [hasMembers_core, hm]
    rw [record_of_hasMembers hmembers] at h
    obtain ⟨before, f, later, middle, member, m, hsplit, -, hl, hv, rfl⟩ := fields_eq_error h
    refine ((smaller member (sizeOf_member_lt hl)).value hv).step fun _ _ _ hmisfits => ?_
    refine .field holds hm ?_ ((lookup_core hm f.1).symm.trans hl) ?_ hmisfits
    · rw [hsplit]
      exact List.mem_append_right _ List.mem_cons_self
    · rw [Entries.get?_put, if_pos rfl]

theorem into_locates {slot left : Node} {place : Place} {e : Error}
    (h : into source slot place = (left, .error e)) : e.Locates place (Refuses source left) := by
  rcases into_cases source slot with
    ⟨type, held, hcore, hnull, heq⟩ | ⟨type, held, hcore, hnull, heq⟩ |
    ⟨held, values, hcore, hvalues, heq⟩ | heq
  · rw [heq] at h
    cases h
  · rw [heq, Prod.mk.injEq] at h
    obtain ⟨rfl, herror⟩ := h
    exact record_locates smaller hnull (Prod.ext rfl herror)
      (Node.core_withCore _ (Node.bare_record type _))
  · rw [heq, Prod.mk.injEq] at h
    obtain ⟨rfl, herror⟩ := h
    obtain ⟨key, member, inner, m, hmem, hget, hinto⟩ := merge_eq_error (Prod.ext rfl herror)
    exact ((smaller member (sizeOf_entry_lt hvalues hmem)).into hinto).step
      fun _ _ _ hrefuses =>
        .entry (Node.core_withCore _ (Node.bare_mapping _)) hvalues hmem hget hrefuses
  · rw [heq] at h
    cases h

theorem value_locates {kind : Kind} {slot left : Node} {place : Place} {e : Error}
    (h : value kind source slot place = (left, .error e)) :
    e.Locates place (Misfits kind source left) := by
  cases hnull : source.isNull with
  | true =>
    rw [value_null hnull] at h
    cases h
  | false =>
    have hscalar {kind : Kind} (hkind : ScalarKind kind) (hleaf : LeafKind kind)
        (h : value kind source slot place = (left, .error e)) :
        e.Locates place (Misfits kind source left) := by
      have hdenote := denote_scalar hkind hnull
      rw [value_scalar hkind hnull] at h
      cases hs : scalarFor kind source.core with
      | some s =>
        rw [hs] at h
        cases h
      | none =>
        rw [hs] at h hdenote
        cases h
        exact locates_mismatch (.self (.leaf hleaf hdenote))
    cases kind with
    | bool => exact hscalar trivial trivial h
    | integer => exact hscalar trivial trivial h
    | float => exact hscalar trivial trivial h
    | string => exact hscalar trivial trivial h
    | any =>
      rw [value_any hnull] at h
      obtain ⟨inner, v, hplace, hfound, hrefuses⟩ := into_locates smaller h
      exact ⟨inner, v, hplace, hfound, .any hrefuses⟩
    | mapping =>
      rcases value_mapping_cases hnull with ⟨entries, he⟩ | hmismatch
      · rw [value_mapping he] at h
        cases h
      · have htells : Tells (Kind.mapping.denote source) (Kind.mapping.mismatches source place)
            (value .mapping source slot place).result := tells_mapping hnull
        rw [hmismatch] at h htells
        cases h
        exact locates_mismatch (.self (.leaf trivial htells.1))
    | sequence item =>
      by_cases hitems : ∃ items, source.core = .sequence items
      · obtain ⟨items, hitems⟩ := hitems
        rw [value_sequence hitems] at h
        cases hs : sequence item items place 0 with
        | ok ns =>
          rw [hs] at h
          cases h
        | error e' =>
          rw [hs] at h
          cases h
          obtain ⟨i, n, m, hn, hv⟩ := sequence_eq_error hs
          have hsize := sizeOf_item_lt hitems (List.mem_of_getElem? hn)
          rw [Nat.zero_add] at hv
          refine ((smaller n hsize).value hv).step fun _ _ _ hmisfits => .item hitems hn ?_
          rw [← left_of_value hv]
          exact hmisfits
      · have hother (items : List Node) : source.core ≠ .sequence items :=
          fun hi => hitems ⟨items, hi⟩
        rw [value_sequence_mismatch hnull hother] at h
        cases h
        exact locates_mismatch (.self (.sequence hnull hother))
    | optional inner =>
      rw [value_optional hnull] at h
      cases hv : value inner source inner.zero place with
      | mk m result =>
        rw [hv] at h
        cases result with
        | ok _ => cases h
        | error e' =>
          cases h
          obtain ⟨place', v, hplace, hfound, hmisfits⟩ := value_locates hv
          rw [left_of_value hv] at hmisfits
          exact ⟨place', v, hplace, hfound, .optional hmisfits⟩
    | record name declared =>
      obtain ⟨type, held, hcore⟩ := exists_recordFor ⟨name, declared⟩ slot
      rw [value_ofFields hnull hcore, Prod.mk.injEq] at h
      obtain ⟨rfl, herror⟩ := h
      have hleft := Node.core_withCore (recordFor ⟨name, declared⟩ slot)
        (Node.bare_record type (record source.core type held place).1)
      obtain ⟨inner, v, hplace, hfound, hrefuses⟩ :=
        record_locates smaller hnull (Prod.ext rfl herror) hleft
      exact ⟨inner, v, hplace, hfound, .record hleft (name_of_recordFor hcore) hrefuses⟩

end Smaller

theorem locating (source : Node) : Locating source := by
  induction hsize : sizeOf source using Nat.strongRecOn generalizing source with
  | _ size ih =>
    have smaller : ∀ n : Node, sizeOf n < sizeOf source → Locating n :=
      fun n hlt => ih (sizeOf n) (hsize ▸ hlt) n rfl
    exact ⟨into_locates smaller, value_locates smaller⟩

end Decode

/-- **An error names the value that does not fit.**  Where decoding fails, the place of the error is
that of a value of the source which does not fit what is expected there: the declared kind without
its optional marks, or the type of the record that is held there; and the kind that is reported is
that of this value.  The field that is reported is the root for the source itself, and for any value
inside it the dotted form of its place, unless that begins with an empty name to which no item
belongs.  The empty names in front are lost, and with nothing else in it the place is taken for the
root. -/
theorem decodeInto_error_located {source target left : Node} {e : Decode.Error}
    (h : decodeInto source target = (left, .error e)) :
    (∃ v, e.found = v.kindName ∧ Decode.Refuses source left e.place v e.expected) ∧
      (e.place = [] → e.field = "<root>") ∧
      (e.place ≠ [] → (e.field = Decode.dotted e.place ↔ ¬ Decode.Hidden e.place)) ∧
      e.field = if Decode.shown e.place = [] then "<root>"
        else Decode.dotted (Decode.shown e.place) := by
  refine ⟨?_, fun hplace => ?_, Decode.placeText_eq_dotted_iff, Decode.placeText_eq e.place⟩
  · unfold decodeInto at h
    split at h
    · cases h
    · obtain ⟨place, v, hplace, hfound, hrefuses⟩ := (Decode.locating source).into h
      rw [hplace]
      exact ⟨v, hfound, hrefuses⟩
  · rw [Decode.Error.field, hplace]
    rfl

/-- The second tag of an animal is no string; the item follows the segment of its field. -/
theorem decodeInto_error_located_tag :
    let horse : RecordType := ⟨"Horse", [("Tags", .optional (.sequence .string))]⟩
    let animal : RecordType := ⟨"Animal", [("Specifics", .any)]⟩
    let target : Node := .record animal [("Specifics", horse.zero)]
    let tags : Node := .sequence [.string "shy", .integer 4]
    let source : Node := .mapping [("Specifics", .mapping [("Tags", tags)])]
    let e : Decode.Error := ⟨[.member "Specifics", .member "Tags", .item 1], "string", "integer"⟩
    decodeInto source target = (target, .error e) ∧ e.field = "Specifics.Tags[1]" ∧
      ∃ v, e.found = v.kindName ∧ Decode.Refuses source target e.place v e.expected := by
  intro horse animal target tags source e
  have hrun : decodeInto source target = (target, .error e) := by
    simp [source, tags, target, animal, horse, e, decodeInto, Decode.into, Decode.record,
      Decode.fields, Decode.value, Decode.sequence, Decode.lookup, Decode.hasMembers,
      Decode.scalarFor, Decode.mismatch, RecordType.zero, Kind.ofType, Kind.zero, Kind.zeroFields,
      Entries.find?, Entries.resolve?, Entries.get?, Entries.put, Entries.ofList, Entries.putAll,
      Node.core, Node.withCore, Node.isNull, Node.kindName, Node.string, Node.integer,
      Scalar.kindName, Kind.text]
  obtain ⟨hlocated, -, hdotted, -⟩ := decodeInto_error_located hrun
  have hshown : ¬ Decode.Hidden e.place := fun h => absurd h.1 (by decide)
  have hfield : e.field = Decode.dotted e.place :=
    (hdotted (List.cons_ne_nil _ _)).mpr hshown
  exact ⟨hrun, hfield.trans (by decide), hlocated⟩

/-- A field with an empty name is taken for the root, and a field inside it for one at the root. -/
theorem empty_name_lost :
    let inner : RecordType := ⟨"Inner", [("a", .integer)]⟩
    let box : RecordType := ⟨"Box", [("", .integer)]⟩
    let nested : RecordType := ⟨"Nested", [("", .ofType inner)]⟩
    let e : Decode.Error := ⟨[.member ""], "integer", "string"⟩
    let deep : Decode.Error := ⟨[.member "", .member "a"], "integer", "string"⟩
    (decodeInto (.mapping [("", .string "x")]) box.zero = (box.zero, .error e) ∧
        e.field = "<root>" ∧ Decode.dotted e.place = "") ∧
      decodeInto (.mapping [("", .mapping [("a", .string "x")])]) nested.zero =
          (nested.zero, .error deep) ∧
        deep.field = "a" ∧ Decode.dotted deep.place = ".a" := by
  intro inner box nested e deep
  refine ⟨⟨?_, by decide, by decide⟩, ?_, by decide, by decide⟩
  · simp [box, e, decodeInto, Decode.into, Decode.record, Decode.fields, Decode.value,
      Decode.lookup, Decode.hasMembers, Decode.scalarFor, Decode.mismatch, RecordType.zero,
      Kind.ofType, Kind.zero, Kind.zeroFields, Entries.find?, Entries.resolve?, Entries.get?,
      Entries.put, Entries.ofList, Entries.putAll, Node.core, Node.withCore, Node.isNull,
      Node.kindName, Node.string, Node.integer, Scalar.kindName, Kind.text]
  · simp [nested, inner, deep, decodeInto, Decode.into, Decode.record, Decode.recordFor,
      Decode.fields, Decode.value, Decode.lookup, Decode.hasMembers, Decode.scalarFor,
      Decode.mismatch, RecordType.zero, Kind.ofType, Kind.zero, Kind.zeroFields, Entries.find?,
      Entries.resolve?, Entries.get?, Entries.put, Entries.ofList, Entries.putAll, Node.core,
      Node.withCore, Node.isNull, Node.record?, Node.kindName, Node.string, Node.integer,
      Scalar.kindName, Kind.text]

end Polydoc
