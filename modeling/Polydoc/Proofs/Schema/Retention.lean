/-
  Proofs/Schema/Retention.lean --- what becomes of the resolved type of a document that is decoded by
  a compiled schema.

  The types of a compiled schema are closed: each name stands for one type, wherever it is named.  So
  the slot that the target path leads to is declared in the types, the record that is put into it is
  one of theirs, and the kind of the slot decides whether it is kept.
-/
import Polydoc.Proofs.Decode.Retaining
import Polydoc.Proofs.Decode.Slots
import Polydoc.Proofs.Schema.Naming

set_option autoImplicit false

namespace Polydoc

/-! ## Closed types -/

namespace Schema

variable {types : Built}

/-- A kind names types of the list alone. -/
def Knows (types : Built) (kind : Kind) : Prop :=
  ∀ t, kind.recordType? = some t → Entries.get? t.name types = some t

/-- Types that have their own names, no field twice, and fields of kinds that name none but them. -/
structure Closed (types : Built) : Prop where
  named : ∀ {name t}, Entries.get? name types = some t → t.name = name
  once : ∀ {name t}, Entries.get? name types = some t → Entries.Distinct t.fields
  fields : ∀ {name t}, Entries.get? name types = some t → ∀ e ∈ t.fields, Knows types e.2

/-- A type of the list is known, if it stands there under its own name. -/
theorem knows_ofType {name : String} {t : RecordType} (hname : t.name = name)
    (h : Entries.get? name types = some t) : Knows types (.ofType t) := by
  intro t' heq
  cases heq
  have hself : Entries.get? t.name types = some t := by
    rw [hname]
    exact h
  exact hself

/-- The kind of a form names the types that the form names. -/
theorem knows_of_filled (named : ∀ {name t}, Entries.get? name types = some t → t.name = name)
    {form : Kind.Form} {kind : Kind} (h : form.filled types = some kind) : Knows types kind := by
  induction form generalizing kind with
  | sequence item ih =>
    rw [Kind.Form.filled, Option.map_eq_some_iff] at h
    obtain ⟨k, hk, rfl⟩ := h
    have hitem : Knows types k := ih hk
    exact hitem
  | optional inner ih =>
    rw [Kind.Form.filled, Option.map_eq_some_iff] at h
    obtain ⟨k, hk, rfl⟩ := h
    have hinner : Knows types k := ih hk
    exact hinner
  | named type =>
    rw [Kind.Form.filled, Option.map_eq_some_iff] at h
    obtain ⟨t, ht, rfl⟩ := h
    exact knows_ofType (named ht) ht
  | _ =>
    cases h
    intro t heq
    cases heq

theorem Knows.append {kind : Kind} (h : Knows types kind) (more : Built) :
    Knows (types ++ more) kind :=
  fun t heq => Entries.get?_append_of_get? (h t heq) more

/-- Types that are made one after another are closed. -/
theorem Listed.closed_types {declared : Declared} (h : Listed declared types) : Closed types := by
  induction h with
  | nil =>
    constructor
    · intro name t h
      cases h
    · intro name t h
      cases h
    · intro name t h
      cases h
  | @snoc types type fields kinds listed new declares means ih =>
    -- a type is one of those before, or the last one
    have hcases {name : String} {t : RecordType}
        (ht : Entries.get? name (types ++ [(type, RecordType.ofFields type kinds)]) = some t) :
        Entries.get? name types = some t ∨ name = type ∧ t = RecordType.ofFields type kinds := by
      rcases List.mem_append.mp (Entries.mem_of_get? ht) with hbefore | hlast
      · exact .inl (Entries.get?_of_mem listed.distinct hbefore)
      · cases List.mem_singleton.mp hlast
        exact .inr ⟨rfl, rfl⟩
    constructor
    · intro name t ht
      rcases hcases ht with hbefore | ⟨rfl, rfl⟩
      · exact ih.named hbefore
      · rfl
    · intro name t ht
      rcases hcases ht with hbefore | ⟨rfl, rfl⟩
      · exact ih.once hbefore
      · exact Entries.distinct_ofList kinds
    · intro name t ht e he
      rcases hcases ht with hbefore | ⟨rfl, rfl⟩
      · exact (ih.fields hbefore e he).append _
      · obtain ⟨written, -, -, form, -, hfilled⟩ :=
          exists_left_of_mem means (Entries.mem_of_mem_ofList he)
        exact (knows_of_filled ih.named hfilled).append _

/-! ## The slot -/

/-- A path that something can be written through from the zero value of a kind leads to a declared
slot. -/
theorem Closed.reaches (hclosed : Closed types) {value : Node} {es : List Element} :
    ∀ {kind : Kind} {n : Node} {index : Nat}, Knows types kind →
      kind.zero.overwrite value index es = .ok n →
      ∃ names declared, Kind.Reaches declared es kind names ∧ Knows types declared := by
  induction es with
  | nil => exact fun {kind} _ _ hknows _ => ⟨[], kind, .slot, hknows⟩
  | cons e rest ih =>
    intro kind n index hknows h
    cases e with
    | self =>
      obtain ⟨names, declared, hreaches, hdeclared⟩ := ih hknows h
      exact ⟨names, declared, .self hreaches, hdeclared⟩
    | parent => cases h
    | root => cases h
    | name text =>
      cases kind with
      | record name fields =>
        have hmade : Entries.get? name types = some ⟨name, fields⟩ := hknows ⟨name, fields⟩ rfl
        have hd : Entries.Distinct fields := hclosed.once hmade
        rw [Kind.zero_record hd] at h
        rcases Node.enter_cases (.record ⟨name, fields⟩ (Kind.zeroFields fields)) text with
          ⟨key, child, hk, hs, he⟩ | ⟨-, he⟩
        · obtain ⟨child', hchild, -⟩ := Node.overwrite_name_ok hk he h
          rw [Node.stored?_record, Kind.get?_zeroFields, Option.map_eq_some_iff] at hs
          obtain ⟨inner, hget, rfl⟩ := hs
          rw [Node.key?_record, Entries.resolve?_congr (Kind.keys_zeroFields fields)] at hk
          have hinner : Knows types inner := hclosed.fields hmade _ (Entries.mem_of_get? hget)
          obtain ⟨names, declared, hreaches, hdeclared⟩ := ih hinner hchild
          exact ⟨key :: names, declared, .field hk (Entries.once_of_get? hd hget) hreaches,
            hdeclared⟩
        · rw [Node.overwrite_name_error he] at h
          cases h
      | _ => cases h

/-! ## The selected type -/

theorem get?_of_mem_pairs {scalars : List Scalar} {chosen : List RecordType}
    {typeMap : List (Toml.Value × String)}
    (h : List.Forall₂ (fun (e : Toml.Value × String) t => Entries.get? e.2 types = some t)
      typeMap chosen) {pair : Scalar × RecordType} (hp : pair ∈ scalars.zip chosen) :
    ∃ name, Entries.get? name types = some pair.2 := by
  obtain ⟨e, -, he⟩ := exists_left_of_mem h (List.of_mem_zip hp).2
  exact ⟨e.2, he⟩

/-- A compiled resolver selects types of the schema. -/
theorem get?_of_selects {s : Schema} {default : Policy} {c : Compiled} {source : Node}
    {chosen : RecordType} (h : s.compile default = .ok c)
    (hs : Resolver.Selects source c.resolver.strategy chosen) :
    ∃ name, Entries.get? name c.types = some chosen := by
  obtain ⟨-, hresolver⟩ := compile_eq_ok_iff.mp h
  obtain ⟨plan, hplan, hbuild⟩ := resolverOf_ok hresolver
  have hmakes := ((Resolver.build_decides _).ok _).mp hbuild
  generalize c.resolver = r at hs hmakes
  cases hmakes with
  | rules target =>
    cases hplan with
    | rules _ made =>
      cases hs with
      | rule passed matched =>
        obtain ⟨form, -, hform⟩ :=
          exists_left_of_mem made (List.mem_append_right _ List.mem_cons_self)
        exact ⟨form.type, ruleOf_ok hform⟩
  | typeMap target discriminator =>
    cases hplan with
    | typeMap _ _ made =>
      cases hs with
      | mapped read scalar stored =>
        obtain ⟨scalars, chosen, rfl, hfound⟩ := pairsOf_ok made
        have hmem := Entries.mem_of_mem_ofList (Entries.mem_of_get? stored)
        exact get?_of_mem_pairs hfound hmem

/-! ## The resolved type -/

/-- **What becomes of the resolved type.**  Whenever decoding by a compiled schema says that a type
was assigned, one is selected, and the target path leads to a slot that is declared in the types of
the schema, or is the whole document.  Afterwards the node at the target path, below its layers, is a
record of the selected type just if the kind of the slot retains it: if that is `any` or the type
itself, if the decoder finds nothing for the slot or a null, or if the kind is optional and gives
such a record when what is found is decoded afresh. -/
theorem decode_retains {s : Schema} {default : Policy} {c : Compiled} {source decoded : Node}
    (h : s.compile default = .ok c)
    (hd : c.resolver.decode source c.target = (decoded, .ok true)) :
    ∃ chosen names declared slot,
      Resolver.Selects source c.resolver.strategy chosen ∧
      Kind.Reaches declared c.resolver.target.elements (.ofType c.root) names ∧
      decoded.at? c.resolver.target = .ok slot ∧
      (slot.IsRecordOf chosen ↔
        (Kind.ofSlot names declared).Retains chosen (source.handed names)) := by
  obtain ⟨htyped, -⟩ := compile_eq_ok_iff.mp h
  obtain ⟨hlisted, hroot, -⟩ := listed_of_typed htyped
  have hclosed : Closed c.types := hlisted.closed_types
  obtain ⟨assigned, hassign, -⟩ := Resolver.assigned_of_decode hd
  obtain ⟨_, -, hset⟩ := Resolver.chosen_of_assign hassign
  obtain ⟨names, declared, hreaches, hdeclared⟩ :=
    hclosed.reaches (knows_ofType (hclosed.named hroot) hroot) (Node.setAt?_eq_ok_iff.mp hset)
  obtain ⟨chosen, slot, place, hselects, hslot, hvalue⟩ := Resolver.decode_slot hreaches hd
  obtain ⟨name, hchosen⟩ := get?_of_selects h hselects
  refine ⟨chosen, names, declared, slot, hselects, hreaches, hslot,
    Decode.retains_iff _ (fun t ht hname => ?_) hvalue⟩
  -- types of one name are one type
  have hknown : Entries.get? t.name c.types = some t := by
    cases names with
    | nil => cases ht
    | cons _ _ => exact hdeclared t ht
  have hself : Entries.get? chosen.name c.types = some chosen :=
    knows_ofType (hclosed.named hchosen) hchosen chosen rfl
  rw [hname, hknown] at hself
  exact (Option.some.inj hself).symm

/-- A horse in an optional slot of its own type, which is decoded afresh. -/
theorem decode_retains_horse :
    let horse : RecordType := ⟨"Horse", [("Shoes", .integer)]⟩
    let animal : RecordType := ⟨"Animal", [("Specifics", .optional (.ofType horse))]⟩
    let s : Schema := ⟨"Animal", none,
      [("Animal", [("Specifics", "Horse?")]), ("Horse", [("Shoes", "integer")])],
      ⟨"Specifics", some "type", [(.string "horse", "Horse")], []⟩⟩
    let c : Compiled := ⟨animal, [("Horse", horse), ("Animal", animal)],
      ⟨.ofNames ["Specifics"] true, .strict,
        .typeMap (.ofNames ["Specifics", "type"] true) ⟨[(.string "horse", horse)]⟩⟩⟩
    let source : Node := .mapping
      [("Specifics", .mapping [("type", .string "horse"), ("Shoes", .integer 4)])]
    let decoded : Node := .record animal
      [("Specifics", .indirect (.record horse [("Shoes", .integer 4)]))]
    s.compile .strict = .ok c ∧ c.resolver.decode source c.target = (decoded, .ok true) ∧
      ∃ chosen names declared slot,
        Resolver.Selects source c.resolver.strategy chosen ∧
        Kind.Reaches declared c.resolver.target.elements (.ofType c.root) names ∧
        decoded.at? c.resolver.target = .ok slot ∧
        (slot.IsRecordOf chosen ↔
          (Kind.ofSlot names declared).Retains chosen (source.handed names)) := by
  intro horse animal s c source decoded
  have htypes : typesOf s.types = .ok c.types := by decide +kernel
  have htyped : s.typed = .ok (animal, c.types) := by
    rw [typed, htypes]
    rfl
  have htarget : (Resolver.Given.text "Specifics").LeadsTo .top c.resolver.target :=
    Resolver.Given.leadsTo_of_bare (by decide +kernel) []
  have hselector : (Resolver.Given.text "type").LeadsTo c.resolver.target
      (.ofNames ["Specifics", "type"] true) :=
    Resolver.Given.leadsTo_of_bare (by decide +kernel) ["Specifics"]
  have hpairs : pairsOf c.types s.resolver.typeMap = .ok [(.string "horse", horse)] := rfl
  have hcompiled : s.compile .strict = .ok c :=
    compile_of_typeMap htyped rfl rfl hpairs htarget hselector
  have hinto : decodeInto source (.record animal [("Specifics", horse.zero)]) =
      (decoded, .ok ()) := by
    simp [source, animal, horse, decoded, decodeInto, Decode.into, Decode.record, Decode.fields,
      Decode.value, Decode.lookup, Decode.hasMembers, Decode.scalarFor, Decode.recordFor,
      RecordType.zero, Kind.zero, Kind.zeroFields, Kind.ofType, Entries.ofList, Entries.putAll,
      Entries.put, Entries.get?, Entries.find?, Entries.resolve?, Node.core, Node.isNull,
      Node.integer, Node.withCore, Node.record?]
  have hdecode : c.resolver.decode source c.target = (decoded, .ok true) :=
    Resolver.decode_of_assigned rfl rfl hinto
  exact ⟨hcompiled, hdecode, decode_retains hcompiled hdecode⟩

/-- The type is lost where the slot is declared as a mapping: the record that was assigned gives way
to what the source has there. -/
theorem resolved_type_lost :
    let horse : RecordType := ⟨"Horse", [("Shoes", .integer)]⟩
    let animal : RecordType := ⟨"Animal", [("Specifics", .mapping)]⟩
    let s : Schema := ⟨"Animal", none,
      [("Animal", [("Specifics", "map")]), ("Horse", [("Shoes", "integer")])],
      ⟨"Specifics", some "type", [(.string "horse", "Horse")], []⟩⟩
    let c : Compiled := ⟨animal, [("Animal", animal), ("Horse", horse)],
      ⟨.ofNames ["Specifics"] true, .strict,
        .typeMap (.ofNames ["Specifics", "type"] true) ⟨[(.string "horse", horse)]⟩⟩⟩
    let given : Node := .mapping [("type", .string "horse"), ("Shoes", .integer 4)]
    let source : Node := .mapping [("Specifics", given)]
    let decoded : Node := .record animal [("Specifics", given)]
    s.compile .strict = .ok c ∧ Resolver.Selects source c.resolver.strategy horse ∧
      c.resolver.decode source c.target = (decoded, .ok true) ∧
      decoded.at? c.resolver.target = .ok given ∧ ¬ given.IsRecordOf horse := by
  intro horse animal s c given source decoded
  have htypes : typesOf s.types = .ok c.types := by decide +kernel
  have htyped : s.typed = .ok (animal, c.types) := by
    rw [typed, htypes]
    rfl
  have htarget : (Resolver.Given.text "Specifics").LeadsTo .top c.resolver.target :=
    Resolver.Given.leadsTo_of_bare (by decide +kernel) []
  have hselector : (Resolver.Given.text "type").LeadsTo c.resolver.target
      (.ofNames ["Specifics", "type"] true) :=
    Resolver.Given.leadsTo_of_bare (by decide +kernel) ["Specifics"]
  have hpairs : pairsOf c.types s.resolver.typeMap = .ok [(.string "horse", horse)] := rfl
  have hinto : decodeInto source (.record animal [("Specifics", horse.zero)]) =
      (decoded, .ok ()) := by
    simp [source, given, animal, decoded, decodeInto, Decode.into, Decode.record, Decode.fields,
      Decode.value, Decode.lookup, Decode.hasMembers, Entries.put, Entries.get?, Entries.find?,
      Entries.resolve?, Node.core, Node.isNull, Node.withCore]
  have hlost : ∀ t held, given.core ≠ .record t held := by
    intro t held heq
    cases heq
  exact ⟨compile_of_typeMap htyped rfl rfl hpairs htarget hselector, .mapped rfl rfl rfl,
    Resolver.decode_of_assigned rfl rfl hinto, rfl, Node.not_isRecordOf hlost⟩

end Schema

end Polydoc
