/-
  Proofs/Decode/Filling.lean --- what the record in a resolved slot is filled with.

  The slot is found by the names of a path, which enter a mapping by exact key and a record in any
  letter case.  It is filled from the member that the decoder finds for the declared field: under the
  very name, else under the first that differs in letter case alone.  The two look-ups meet where
  they find the same members; then the slot holds what the source has at the path, and nothing else
  of the source has a part in it.
-/
import Polydoc.Proofs.Decode.Denotation
import Polydoc.Proofs.Decode.Places
import Polydoc.Proofs.Decode.Slots
import Polydoc.Proofs.Node.Fitting
import Polydoc.Proofs.Resolver.Contract
import Polydoc.Resolver.Decode

set_option autoImplicit false

namespace Polydoc

/-! ## Where the look-ups meet -/

/-- The elements lead from a value of the kind through fields of record types, found in any letter
case, to a field of kind `any`; the names are those that the fields are declared with, each once. -/
inductive Kind.Leads : List Element → Kind → List String → Prop where
  | slot : Leads [] .any []
  | self {es : List Element} {kind : Kind} {names : List String} (inner : Leads es kind names) :
      Leads (.self :: es) kind names
  | field {text key name : String} {fields : List (String × Kind)} {es : List Element}
      {kind : Kind} {names : List String} (found : Entries.resolve? text fields = some key)
      (once : Entries.Once key kind fields) (inner : Leads es kind names) :
      Leads (.name text :: es) (.record name fields) (key :: names)

theorem Kind.Leads.reaches {es : List Element} {kind : Kind} {names : List String}
    (h : Kind.Leads es kind names) : Kind.Reaches .any es kind names := by
  induction h with
  | slot => exact .slot
  | self _ ih => exact .self ih
  | field found once _ ih => exact .field found once ih

namespace Node

/-- The elements of a path and the declared names lead through the same members of a source: each
name of the path enters what the decoder finds for the field. -/
inductive Agree : Node → List Element → List String → Prop where
  | slot {n : Node} : Agree n [] []
  | self {es : List Element} {names : List String} {n : Node} (inner : n.Agree es names) :
      Agree n (.self :: es) names
  | member {text name : String} {es : List Element} {names : List String} {n child : Node}
      (entered : n.enter text = .ok child) (found : Decode.lookup n.core name = some child)
      (inner : child.Agree es names) : Agree n (.name text :: es) (name :: names)

/-- Nowhere in a document do two members have names that differ in letter case alone. -/
def Unambiguous (n : Node) : Prop :=
  ∀ m members, Part m n → m.members? = some members → ∀ key ∈ Entries.keys members,
    ∀ other ∈ Entries.keys members, Text.lowercase key = Text.lowercase other → key = other

section Agree

variable {n v : Node} {es : List Element} {names : List String}

/-- Whatever stands inside an unambiguous document is unambiguous. -/
theorem Unambiguous.part {m : Node} (h : n.Unambiguous) (hp : Part m n) : m.Unambiguous :=
  fun l members hl => h l members (hl.trans hp)

theorem lowercase_of_key? {name key : String} (h : n.key? name = some key) :
    Text.lowercase key = Text.lowercase name := by
  unfold key? at h
  cases hn : n.core with
  | mapping entries =>
    rw [hn] at h
    dsimp only at h
    split at h <;> cases h
    rfl
  | record type held =>
    rw [hn] at h
    exact Entries.lowercase_of_resolve? h
  | _ =>
    rw [hn] at h
    cases h

theorem lookup_of_resolve? {members : List (String × Node)} {name key : String} {child : Node}
    (has : n.members? = some members) (found : Entries.resolve? name members = some key)
    (stored : n.stored? key = some child) : Decode.lookup n.core name = some child := by
  have hget : Entries.get? key members = some child := by
    rw [stored?, has] at stored
    exact stored
  have hfind : Entries.find? name members = some child := by
    rw [Entries.find?, found]
    exact hget
  unfold members? at has
  cases hn : n.core with
  | mapping entries =>
    rw [hn] at has
    cases has
    exact hfind
  | record type held =>
    rw [hn] at has
    cases has
    exact hfind
  | _ =>
    rw [hn] at has
    cases has

/-- Where the look-ups meet, the decoder is handed what stands at the path. -/
theorem Agree.handed_eq (h : n.Agree es names) :
    ∀ {index : Nat}, n.walk index es = .ok v → n.handed names = v := by
  induction h with
  | slot =>
    intro index hw
    cases hw
    rfl
  | self _ ih => exact ih
  | member entered found _ ih =>
    intro index hw
    rw [walk_name entered] at hw
    rw [handed, found]
    exact ih hw

end Agree

/-- If no two member names differ in letter case alone, the look-ups meet all along a path that can
be followed. -/
theorem Unambiguous.agree {es : List Element} {kind : Kind} {names : List String}
    (hleads : Kind.Leads es kind names) :
    ∀ {n v : Node} {index : Nat}, n.Unambiguous → n.walk index es = .ok v → n.Agree es names := by
  induction hleads with
  | slot => exact fun _ _ => .slot
  | self _ ih => exact fun hu hw => .self (ih hu hw)
  | @field text key name fields es kind names found once inner ih =>
    intro n v index hu hw
    rcases enter_cases n text with ⟨stored, child, hk, hs, he⟩ | ⟨_, he⟩
    · obtain ⟨members, hmembers, hget, _⟩ := store_eq hs
      have hmem : stored ∈ Entries.keys members := Entries.mem_keys_of_get? hget
      have hsame : Text.lowercase stored = Text.lowercase key :=
        (lowercase_of_key? hk).trans (Entries.lowercase_of_resolve? found).symm
      obtain ⟨other, hother⟩ := Entries.exists_resolve? hmem hsame
      have hlower : Text.lowercase other = Text.lowercase stored :=
        (Entries.lowercase_of_resolve? hother).trans hsame.symm
      have heq : other = stored :=
        hu n members .here hmembers other (Entries.mem_keys_of_resolve? hother) stored hmem hlower
      subst heq
      rw [walk_name he] at hw
      exact .member he (lookup_of_resolve? hmembers hother hs)
        (ih (hu.part (part_of_stored? hs)) hw)
    · rw [walk_name_error he] at hw
      cases hw

end Node

/-! ## Resolving, then decoding -/

namespace Resolver

variable {r : Resolver} {source decoded : Node} {t : RecordType} {names : List String}

/-- The record in the slot is what is decoded from the value handed to it. -/
theorem decode_handed (hleads : Kind.Leads r.target.elements (.ofType t) names)
    (h : r.decode source t.zero = (decoded, .ok true)) :
    ∃ chosen slot, r.choose source = .ok (.ok chosen) ∧ decoded.at? r.target = .ok slot ∧
      decodeInto (source.handed names) chosen.zero = (slot, .ok ()) := by
  obtain ⟨chosen, slot, place, hselects, hslot, hvalue⟩ := decode_slot hleads.reaches h
  have hany : Kind.ofSlot names .any = .any := by cases names <;> rfl
  rw [hany] at hvalue
  exact ⟨chosen, slot, choose_of_selects hselects, hslot, decodeInto_of_value_any hvalue⟩

/-- Whatever is decoded, the slot holds what is decoded from `v` alone into a fresh record of the
chosen type. -/
def FillsFrom (r : Resolver) (source : Node) (t : RecordType) (v : Node) : Prop :=
  ∀ decoded, r.decode source t.zero = (decoded, .ok true) →
    ∃ chosen slot, r.choose source = .ok (.ok chosen) ∧ decoded.at? r.target = .ok slot ∧
      decodeInto v chosen.zero = (slot, .ok ())

/-- **Type and data come from the same place.**  Let the target of a resolver lead from a type
through fields of record types to a field of kind `any`, by names that are declared once, and let
the path lead to a value of the source.  It does so by the very members that the decoder finds for
these names, if no two members of the source have names that differ in letter case alone.  Wherever
it does, the slot holds after a successful decoding what is decoded from that value alone into a
fresh record of the chosen type. -/
theorem decode_fills_slot {v : Node} (hleads : Kind.Leads r.target.elements (.ofType t) names)
    (hv : source.at? r.target = .ok v) :
    (source.Unambiguous → source.Agree r.target.elements names) ∧
      (source.Agree r.target.elements names → r.FillsFrom source t v) := by
  have hwalk : source.walk 0 r.target.elements = .ok v := Node.at?_eq_ok_iff.mp hv
  refine ⟨fun hu => Node.Unambiguous.agree hleads hu hwalk, fun hagree decoded h => ?_⟩
  obtain ⟨chosen, slot, hchoose, hslot, hinto⟩ := decode_handed hleads h
  have hhanded : source.handed names = v := hagree.handed_eq hwalk
  rw [hhanded] at hinto
  exact ⟨chosen, slot, hchoose, hslot, hinto⟩

/-- The pet of an owner, whose field names differ from the keys of the source in letter case. -/
theorem decode_fills_slot_pet :
    let horse : RecordType := ⟨"Horse", [("name", .string), ("hands", .integer)]⟩
    let owner : RecordType := ⟨"Owner", [("id", .integer), ("Pet", .any)]⟩
    let stable : RecordType := ⟨"Stable", [("kind", .string), ("Owner", .ofType owner)]⟩
    let v : Node := .mapping [("hands", .integer 15), ("name", .string "Bo")]
    let house : Node := .mapping [("pet", v), ("id", .integer 7)]
    let source : Node := .mapping [("kind", .string "horse"), ("owner", house)]
    let r : Resolver := ⟨⟨[.name "owner", .self, .name "pet"], true⟩, .strict,
      .typeMap ⟨[.name "kind"], true⟩ ⟨[(.string "horse", horse)]⟩⟩
    let pet : Node := .record horse [("name", .string "Bo"), ("hands", .integer 15)]
    let decoded : Node := .record stable [("kind", .string "horse"),
      ("Owner", .record owner [("id", .integer 7), ("Pet", pet)])]
    Kind.Leads r.target.elements (.ofType stable) ["Owner", "Pet"] ∧
      source.at? r.target = .ok v ∧ source.Agree r.target.elements ["Owner", "Pet"] ∧
      r.decode source stable.zero = (decoded, .ok true) ∧
      r.FillsFrom source stable v := by
  intro horse owner stable v house source r pet decoded
  have howner : Entries.resolve? "owner" stable.fields = some "Owner" := by decide +kernel
  have hpet : Entries.resolve? "pet" owner.fields = some "Pet" := by decide +kernel
  have hleads : Kind.Leads r.target.elements (.ofType stable) ["Owner", "Pet"] :=
    .field howner ⟨[("kind", .string)], [], rfl, by simp [Entries.keys], by simp [Entries.keys]⟩
      (.self (.field hpet
        ⟨[("id", .integer)], [], rfl, by simp [Entries.keys], by simp [Entries.keys]⟩ .slot))
  have hv : source.at? r.target = .ok v := rfl
  -- the decoder finds the keys of the source by the declared names
  have hkind : Text.lowercase "kind" ≠ Text.lowercase "Owner" := by decide +kernel
  have hlower : Text.lowercase "owner" = Text.lowercase "Owner" := by decide +kernel
  have hlower' : Text.lowercase "pet" = Text.lowercase "Pet" := by decide +kernel
  have hhouse : Decode.lookup source "Owner" = some house := by
    simp [source, house, Decode.lookup, Entries.find?, Entries.resolve?, Entries.get?,
      Entries.foldedKey?, hkind, hlower]
  have hfound : Decode.lookup house "Pet" = some v := by
    simp [house, Decode.lookup, Entries.find?, Entries.resolve?, Entries.get?,
      Entries.foldedKey?, hlower']
  have hagree : source.Agree r.target.elements ["Owner", "Pet"] :=
    .member rfl hhouse (.self (.member rfl hfound .slot))
  have hassigned : stable.zero.assignTypeAt? r.target horse =
      .ok (.record stable [("kind", .string ""),
        ("Owner", .record owner [("id", .integer 0), ("Pet", horse.zero)])]) := by
    have hk : stable.zero.key? "owner" = some "Owner" :=
      (Entries.resolve?_congr rfl "owner").trans howner
    have hk' : owner.zero.key? "pet" = some "Pet" :=
      (Entries.resolve?_congr rfl "pet").trans hpet
    have hinner : owner.zero.overwrite horse.zero 2 [.name "pet"] =
        .ok (.record owner [("id", .integer 0), ("Pet", horse.zero)]) :=
      Node.overwrite_name hk' (Node.enter_of_key? hk' rfl) _ 2 []
    have houter := Node.overwrite_name hk (Node.enter_of_key? hk rfl) horse.zero 0
      [.self, .name "pet"]
    exact Node.setAt?_eq_ok_iff.mpr (houter.trans (congrArg (Except.map _) hinner))
  have hinto : decodeInto source (.record stable [("kind", .string ""),
      ("Owner", .record owner [("id", .integer 0), ("Pet", horse.zero)])]) = (decoded, .ok ()) := by
    simp [source, house, v, decoded, pet, stable, owner, horse, decodeInto, Decode.into,
      Decode.record, Decode.fields, Decode.value, Decode.lookup, Decode.hasMembers,
      Decode.scalarFor, Decode.recordFor, RecordType.zero, Kind.zero, Kind.zeroFields, Kind.ofType,
      Entries.ofList, Entries.putAll, Entries.put, Entries.get?, Entries.find?, Entries.resolve?,
      Entries.foldedKey?, hkind, hlower, hlower', Node.core, Node.isNull, Node.string,
      Node.integer, Node.withCore, Node.record?]
  exact ⟨hleads, hv, hagree, decode_of_assigned rfl hassigned hinto,
    (decode_fills_slot hleads hv).2 hagree⟩

/-- What the slot holds in one run is what is decoded from the value. -/
theorem FillsFrom.slot_eq {v assigned slot other : Node} {chosen : RecordType}
    (h : r.FillsFrom source t v) (hchoose : r.choose source = .ok (.ok chosen))
    (hassigned : t.zero.assignTypeAt? r.target chosen = .ok assigned)
    (hinto : decodeInto source assigned = (decoded, .ok ()))
    (hslot : decoded.at? r.target = .ok slot)
    (hv : decodeInto v chosen.zero = (other, .ok ())) : slot = other := by
  obtain ⟨type, found, htype, hfound, hdecoded⟩ :=
    h decoded (decode_of_assigned hchoose hassigned hinto)
  rw [hchoose] at htype
  cases htype
  rw [hslot] at hfound
  cases hfound
  rw [hv] at hdecoded
  cases hdecoded
  rfl

/-- Without either condition the slot may hold something else.  In the first source a horse is chosen
by what stands under `specifics`, and filled from what stands under the very name of the field.  In
the second type the name of the field is declared again, with a type of its own, and the horse gives
way to a record of that type. -/
theorem not_fillsFrom :
    let horse : RecordType := ⟨"Horse", [("Shoes", .integer)]⟩
    let bird : RecordType := ⟨"Bird", [("Wings", .integer)]⟩
    let v : Node :=
      .mapping [("type", .string "horse"), ("Shoes", .integer 4), ("Wings", .integer 2)]
    let under (name : String) : Resolver := ⟨⟨[.name name], true⟩, .strict,
      .typeMap ⟨[.name name, .name "type"], true⟩ ⟨[(.string "horse", horse)]⟩⟩
    let animal : RecordType := ⟨"Animal", [("Specifics", .any)]⟩
    let source : Node :=
      .mapping [("specifics", v), ("Specifics", .mapping [("Shoes", .integer 9)])]
    let hybrid : RecordType := ⟨"Hybrid", [("Specifics", .any), ("Specifics", .ofType bird)]⟩
    let single : Node := .mapping [("Specifics", v)]
    (Kind.Leads [.name "specifics"] (.ofType animal) ["Specifics"] ∧
        source.at? (under "specifics").target = .ok v ∧
        ¬ (under "specifics").FillsFrom source animal v) ∧
      hybrid.kind? "Specifics" = some .any ∧
        single.at? (under "Specifics").target = .ok v ∧
        ¬ (under "Specifics").FillsFrom single hybrid v := by
  intro horse bird v under animal source hybrid single
  let shod (shoes : Int64) : Node := .record horse [("Shoes", .integer shoes)]
  let winged : Node := .record bird [("Wings", .integer 2)]
  have hname : Entries.resolve? "specifics" animal.fields = some "Specifics" := by decide +kernel
  have hdistinct : horse.Distinct := by
    simp [horse, RecordType.Distinct, Kind.ofType, Kind.Distinct, Kind.FieldsDistinct,
      Entries.Distinct, Entries.keys]
  have hv : decodeInto v horse.zero = (shod 4, .ok ()) :=
    (decodeInto_zero_ok_iff hdistinct).mpr rfl
  refine ⟨⟨?_, rfl, ?_⟩, rfl, rfl, ?_⟩
  · exact .field hname ⟨[], [], rfl, List.not_mem_nil, List.not_mem_nil⟩ .slot
  · intro h
    have hk (n : Node) : (Node.record animal [("Specifics", n)]).key? "specifics" =
        some "Specifics" := (Entries.resolve?_congr rfl "specifics").trans hname
    have hassigned : animal.zero.assignTypeAt? (under "specifics").target horse =
        .ok (.record animal [("Specifics", horse.zero)]) :=
      Node.setAt?_eq_ok_iff.mpr
        (Node.overwrite_name (hk .null) (Node.enter_of_key? (hk .null) rfl) horse.zero 0 [])
    have hinto : decodeInto source (.record animal [("Specifics", horse.zero)]) =
        (.record animal [("Specifics", shod 9)], .ok ()) := by
      simp [source, animal, shod, horse, decodeInto, Decode.into, Decode.record, Decode.fields,
        Decode.value, Decode.lookup, Decode.hasMembers, Decode.scalarFor, RecordType.zero,
        Kind.zero, Kind.zeroFields, Kind.ofType, Entries.ofList, Entries.putAll, Entries.put,
        Entries.get?, Entries.find?, Entries.resolve?, Node.core, Node.isNull, Node.integer,
        Node.withCore]
    have hslot : (Node.record animal [("Specifics", shod 9)]).at? (under "specifics").target =
        .ok (shod 9) :=
      Node.at?_eq_ok_iff.mpr (Node.walk_name (Node.enter_of_key? (hk (shod 9)) rfl) 0 [])
    have heq : shod 9 = shod 4 := h.slot_eq rfl hassigned hinto hslot hv
    simp [shod, Node.integer] at heq
  · intro h
    have hinto : decodeInto single (.record hybrid [("Specifics", horse.zero)]) =
        (.record hybrid [("Specifics", winged)], .ok ()) := by
      simp [single, v, hybrid, winged, horse, bird, decodeInto, Decode.into, Decode.record,
        Decode.fields, Decode.value, Decode.lookup, Decode.hasMembers, Decode.scalarFor,
        Decode.recordFor, RecordType.zero, Kind.zero, Kind.zeroFields, Kind.ofType, Entries.ofList,
        Entries.putAll, Entries.put, Entries.get?, Entries.find?, Entries.resolve?, Node.core,
        Node.isNull, Node.integer, Node.string, Node.withCore, Node.record?]
    have heq : winged = shod 4 := h.slot_eq rfl rfl hinto rfl hv
    simp [winged, shod, horse, bird] at heq

end Resolver

end Polydoc
