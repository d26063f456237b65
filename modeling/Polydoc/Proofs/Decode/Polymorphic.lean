/-
  Proofs/Decode/Polymorphic.lean --- filling a slot whose type was chosen at run time is filling a
  field that was declared with that type.

  `Kind.Specialised` turns a field of kind `any`, reached through fields of record types, into a
  field of a chosen record type.  `Node.Counterpart` relates the records of the two declarations:
  they hold the same values, and in the slot the same record of the chosen type.  The fresh records
  are counterparts once the slot has been assigned, and decoding keeps counterparts.
-/
import Polydoc.Proofs.Decode.Steps
import Polydoc.Proofs.Kind
import Polydoc.Proofs.Navigation.Overwriting
import Polydoc.Resolver.Decode

set_option autoImplicit false

namespace Polydoc

/-! ## The two declarations -/

/-- The elements lead from a value of the first kind through fields of record types, found in any
letter case, to a field of kind `any`; the second kind is the first one with that field declared as
a record of type `chosen`. -/
inductive Kind.Specialised (chosen : RecordType) : List Element → Kind → Kind → Prop where
  | slot : Specialised chosen [] .any (ofType chosen)
  | self {es : List Element} {kind kind' : Kind} (inner : Specialised chosen es kind kind') :
      Specialised chosen (.self :: es) kind kind'
  | field {text key name : String} {fields : List (String × Kind)} {es : List Element}
      {kind kind' : Kind} (found : Entries.resolve? text fields = some key)
      (declared : Entries.get? key fields = some kind)
      (inner : Specialised chosen es kind kind') :
      Specialised chosen (.name text :: es) (.record name fields)
        (.record name (Entries.put key kind' fields))

/-- Records of the two declarations that hold the same values: along the elements each is the record
of its own type, every field off the way holds one and the same value, and at the end both hold the
same record of type `chosen`. -/
inductive Node.Counterpart (chosen : RecordType) :
    List Element → Kind → Kind → Node → Node → Prop where
  | slot (held : List (String × Node)) :
      Counterpart chosen [] .any (Kind.ofType chosen) (.record chosen held) (.record chosen held)
  | self {es : List Element} {kind kind' : Kind} {n n' : Node}
      (inner : Counterpart chosen es kind kind' n n') :
      Counterpart chosen (.self :: es) kind kind' n n'
  | field {text key name : String} {fields : List (String × Kind)} {es : List Element}
      {kind kind' : Kind} {held : List (String × Node)} {n n' : Node}
      (found : Entries.resolve? text fields = some key)
      (declared : Entries.get? key fields = some kind)
      (complete : Entries.keys held = Entries.keys fields)
      (stored : Entries.get? key held = some n)
      (inner : Counterpart chosen es kind kind' n n') :
      Counterpart chosen (.name text :: es) (.record name fields)
        (.record name (Entries.put key kind' fields)) (.record ⟨name, fields⟩ held)
        (.record ⟨name, Entries.put key kind' fields⟩ (Entries.put key n' held))

namespace Node.Counterpart

variable {chosen : RecordType} {es : List Element} {kind kind' : Kind} {n n' : Node}

section Field

variable {text key name : String} {fields : List (String × Kind)} {held : List (String × Node)}

/-- The name that leads to the field of the type leads to the value of a record. -/
theorem key?_of_complete (found : Entries.resolve? text fields = some key)
    (complete : Entries.keys held = Entries.keys fields) :
    (Node.record ⟨name, fields⟩ held).key? text = some key := by
  rw [key?_record, Entries.resolve?_congr complete, found]

/-- Another value in a field, and another kind for it, do not show anywhere else. -/
theorem sameBut_put (stored : Entries.get? key held = some n) :
    SameBut key (.record ⟨name, fields⟩ held)
      (.record ⟨name, Entries.put key kind' fields⟩ (Entries.put key n' held)) where
  names entered := by
    have hkeys : Entries.keys (Entries.put key n' held) = Entries.keys held :=
      Entries.keys_put_of_mem (Entries.mem_keys_of_get? stored) n'
    rw [key?_record, key?_record, Entries.resolve?_congr hkeys]
  values k hk := by rw [stored?_record, stored?_record, Entries.get?_put, if_neg (Ne.symm hk)]
  refusal := rfl

theorem stored?_put :
    (Node.record ⟨name, Entries.put key kind' fields⟩ (Entries.put key n' held)).stored? key =
      some n' := by
  rw [stored?_record, Entries.get?_put, if_pos rfl]

end Field

/-- In the slot both hold the same record. -/
theorem walk_eq (h : Counterpart chosen es kind kind' n n') :
    ∃ held, ∀ index, n.walk index es = .ok (.record chosen held) ∧
      n'.walk index es = .ok (.record chosen held) := by
  induction h with
  | slot held => exact ⟨held, fun _ => ⟨rfl, rfl⟩⟩
  | self _ ih =>
    obtain ⟨held, hw⟩ := ih
    exact ⟨held, fun index => hw (index + 1)⟩
  | @field text key name fields es kind kind' held n n' found _ complete stored _ ih =>
    obtain ⟨last, hw⟩ := ih
    have hk : (Node.record ⟨name, fields⟩ held).key? text = some key :=
      key?_of_complete found complete
    have hk' : (Node.record ⟨name, Entries.put key kind' fields⟩
        (Entries.put key n' held)).key? text = some key := by
      rw [(sameBut_put stored).names, hk]
    refine ⟨last, fun index => ⟨?_, ?_⟩⟩
    · rw [walk_name (enter_of_key? hk stored)]
      exact (hw (index + 1)).1
    · rw [walk_name (enter_of_key? hk' stored?_put)]
      exact (hw (index + 1)).2

/-- Counterparts of two record types are records of these types. -/
theorem records {t t' : RecordType} (h : Counterpart chosen es (.ofType t) (.ofType t') n n') :
    ∃ held held', n = .record t held ∧ n' = .record t' held' := by
  obtain ⟨name, fields⟩ := t
  obtain ⟨name', fields'⟩ := t'
  generalize hk : Kind.ofType ⟨name, fields⟩ = kind at h
  generalize hk' : Kind.ofType ⟨name', fields'⟩ = kind' at h
  induction h with
  | slot held => cases hk
  | self _ ih => exact ih hk hk'
  | field _ _ _ _ _ _ =>
    cases hk
    cases hk'
    exact ⟨_, _, rfl, rfl⟩

/-- A walk that does not end at a record on the way to the slot goes the same way in both. -/
theorem walk_congr (h : Counterpart chosen es kind kind' n n') :
    ∀ (qs : List Element) (index : Nat),
      (∀ found, n.walk index qs = .ok found → n.place qs <+: n.place es →
        n.place qs = n.place es) →
      n'.walk index qs = n.walk index qs := by
  induction h with
  | slot held => intro qs index _; rfl
  | self _ ih => exact ih
  | @field text key name fields es kind kind' held n n' found _ complete stored _ ih =>
    have hk : (Node.record ⟨name, fields⟩ held).key? text = some key :=
      key?_of_complete found complete
    rw [place_name hk (enter_of_key? hk stored)]
    intro qs
    induction qs with
    | nil =>
      intro index haround
      cases haround _ rfl List.nil_prefix
    | cons q rest ihqs =>
      intro index haround
      cases q with
      | self => exact ihqs (index + 1) haround
      | name entered =>
        rcases (sameBut_put stored).enter_cases stored stored?_put entered with
          ⟨hq, he, he'⟩ | ⟨_, child, _, _, he, he'⟩ | ⟨_, he, he'⟩
        · rw [walk_name he, place_name hq he] at haround
          rw [walk_name he, walk_name he']
          refine ih rest (index + 1) fun a ha hp => ?_
          exact (List.cons.inj (haround a ha (List.cons_prefix_cons.mpr ⟨rfl, hp⟩))).2
        · rw [walk_name he, walk_name he']
        · rw [walk_name_error he, walk_name_error he']
      | parent => rfl
      | root => rfl

end Node.Counterpart

/-! ## Fresh records -/

/-- A fresh record in which the slot has been assigned is the counterpart of a fresh record of the
other declaration. -/
theorem Kind.Specialised.zero {chosen : RecordType} {es : List Element} {kind kind' : Kind}
    (h : Kind.Specialised chosen es kind kind') (hd : kind.Distinct) :
    ∃ n, (∀ index, kind.zero.overwrite chosen.zero index es = .ok n) ∧
      Node.Counterpart chosen es kind kind' n kind'.zero := by
  induction h with
  | slot => exact ⟨chosen.zero, fun _ => rfl, .slot _⟩
  | self _ ih =>
    obtain ⟨n, hn, hc⟩ := ih hd
    exact ⟨n, fun index => hn (index + 1), .self hc⟩
  | @field text key name fields es kind kind' found declared _ ih =>
    obtain ⟨n, hn, hc⟩ := ih (hd.2.get? declared)
    have hstored : Entries.get? key (zeroFields fields) = some kind.zero := by
      rw [get?_zeroFields, declared]
      rfl
    have hk : (Node.record ⟨name, fields⟩ (zeroFields fields)).key? text = some key := by
      rw [Node.key?_record, Entries.resolve?_congr (keys_zeroFields fields), found]
    refine ⟨.record ⟨name, fields⟩ (Entries.put key n (zeroFields fields)), fun index => ?_, ?_⟩
    · rw [zero_record hd.1, Node.overwrite_name hk (Node.enter_of_key? hk hstored), hn]
      rfl
    · have hput : Entries.put key kind'.zero (zeroFields fields) =
          Entries.put key kind'.zero (Entries.put key n (zeroFields fields)) :=
        (Entries.put_put key n kind'.zero _).symm
      rw [zero_record (Entries.distinct_put key kind' hd.1), zeroFields_put, hput]
      refine .field found declared ?_ ?_ hc
      · rw [Entries.keys_put_of_mem (Entries.mem_keys_of_get? hstored), keys_zeroFields]
      · rw [Entries.get?_put, if_pos rfl]

/-! ## Decoding -/

namespace Decode

/-- Two outcomes for the fields of a record that agree but for the value under `key`, where the two
values are related. -/
def AgreeBut (related : Node → Node → Prop) (key : String)
    (one other : Outcome (List (String × Node))) : Prop :=
  one.2 = other.2 ∧ ∃ m m', Entries.get? key one.1 = some m ∧
    other.1 = Entries.put key m' one.1 ∧ related m m'

section Fields

variable {related : Node → Node → Prop} {key : String} {source : Node} {place : Place}
  {type type' : RecordType} {held : List (String × Node)} {n n' : Node}

/-- Fields of other names. -/
theorem fields_agreeBut {todo : List (String × Kind)}
    (htypes : ∀ name, name ≠ key → type'.kind? name = type.kind? name)
    (hstored : Entries.get? key held = some n) (hrelated : related n n')
    (htodo : key ∉ Entries.keys todo) :
    AgreeBut related key (fields source type todo held place)
      (fields source type' todo (Entries.put key n' held) place) := by
  rw [fields_put n' htypes (Entries.mem_keys_of_get? hstored) htodo]
  exact ⟨rfl, n, n', by rw [get?_fields htodo, hstored], rfl, hrelated⟩

/-- The field of that name, declared with two kinds, and fields of other names behind it. -/
theorem fields_agreeBut_cons {kind kind' : Kind} {rest : List (String × Kind)}
    (htypes : ∀ name, name ≠ key → type'.kind? name = type.kind? name)
    (hstored : Entries.get? key held = some n) (hrelated : related n n')
    (step : ∀ member inner, (value kind member n inner).2 = (value kind' member n' inner).2 ∧
      related (value kind member n inner).1 (value kind' member n' inner).1)
    (hrest : key ∉ Entries.keys rest) :
    AgreeBut related key (fields source type ((key, kind) :: rest) held place)
      (fields source type' ((key, kind') :: rest) (Entries.put key n' held) place) := by
  cases hl : lookup source key with
  | none =>
    rw [fields_cons_none hl, fields_cons_none hl]
    exact fields_agreeBut htypes hstored hrelated hrest
  | some member =>
    have hslot : slotOf type key held = n := by rw [slotOf, hstored]
    have hslot' : slotOf type' key (Entries.put key n' held) = n' := by
      rw [slotOf, Entries.get?_put, if_pos rfl]
    obtain ⟨hresult, hrel⟩ := step member (place ++ [.member key])
    rw [fields_cons_some hl, fields_cons_some hl, hslot, hslot']
    cases hv : value kind member n (place ++ [.member key]) with
    | mk decoded result =>
      cases hv' : value kind' member n' (place ++ [.member key]) with
      | mk decoded' result' =>
        rw [hv, hv'] at hresult hrel
        cases hresult
        have hnew : Entries.get? key (Entries.put key decoded held) = some decoded := by
          rw [Entries.get?_put, if_pos rfl]
        have hput : Entries.put key decoded' (Entries.put key n' held) =
            Entries.put key decoded' (Entries.put key decoded held) := by
          rw [Entries.put_put, Entries.put_put]
        cases result with
        | error e => exact ⟨rfl, decoded, decoded', hnew, hput, hrel⟩
        | ok _ =>
          dsimp only
          rw [hput]
          exact fields_agreeBut htypes hnew hrel hrest

/-- All fields of a record of which one is declared with two kinds. -/
theorem fields_agreeBut_put {name : String} {declared : List (String × Kind)} {kind : Kind}
    (kind' : Kind) (hd : Entries.Distinct declared)
    (hdeclared : Entries.get? key declared = some kind)
    (hstored : Entries.get? key held = some n) (hrelated : related n n')
    (step : ∀ member inner, (value kind member n inner).2 = (value kind' member n' inner).2 ∧
      related (value kind member n inner).1 (value kind' member n' inner).1) :
    AgreeBut related key (fields source ⟨name, declared⟩ declared held place)
      (fields source ⟨name, Entries.put key kind' declared⟩ (Entries.put key kind' declared)
        (Entries.put key n' held) place) := by
  have htypes : ∀ nm, nm ≠ key →
      RecordType.kind? ⟨name, Entries.put key kind' declared⟩ nm =
        RecordType.kind? ⟨name, declared⟩ nm := by
    intro nm hnm
    rw [RecordType.kind?, RecordType.kind?, Entries.get?_put, if_neg (Ne.symm hnm)]
  obtain ⟨before, after, hsplit, hbefore, hput⟩ := Entries.split_of_get? hdeclared
  have hafter : key ∉ Entries.keys after := by
    unfold Entries.Distinct Entries.keys at hd
    rw [hsplit, List.map_append, List.map_cons, List.nodup_append] at hd
    exact (List.nodup_cons.mp hd.2.1).1
  generalize RecordType.mk name declared = type at *
  generalize RecordType.mk name (Entries.put key kind' declared) = type' at *
  rw [hput kind', hsplit, fields_append, fields_append,
    fields_put n' htypes (Entries.mem_keys_of_get? hstored) hbefore]
  have hget : Entries.get? key (fields source type before held place).1 = some n := by
    rw [get?_fields hbefore, hstored]
  cases hfirst : fields source type before held place with
  | mk decoded result =>
    rw [hfirst] at hget
    cases result with
    | error e => exact ⟨rfl, n, n', hget, rfl, hrelated⟩
    | ok _ => exact fields_agreeBut_cons htypes hget hrelated step hafter

end Fields

/-- Decoding keeps counterparts, with the same result. -/
theorem value_counterpart {chosen : RecordType} {es : List Element} {kind kind' : Kind}
    {n n' : Node} (h : Node.Counterpart chosen es kind kind' n n') (hd : kind.Distinct)
    (source : Node) (place : Place) :
    (value kind source n place).2 = (value kind' source n' place).2 ∧
      Node.Counterpart chosen es kind kind' (value kind source n place).1
        (value kind' source n' place).1 := by
  induction h generalizing source place with
  | slot held =>
    rw [value_any_record, Kind.ofType, value_record source _ _ chosen rfl, into_record]
    split
    · exact ⟨rfl, .slot held⟩
    · exact ⟨rfl, .slot _⟩
  | self _ ih =>
    obtain ⟨hresult, hc⟩ := ih hd source place
    exact ⟨hresult, .self hc⟩
  | @field text key name declared es kind kind' held n n' found hdeclared complete stored inner
    ih =>
    rw [value_record source name declared ⟨name, declared⟩ rfl,
      value_record source name _ ⟨name, Entries.put key kind' declared⟩ rfl, into_record,
      into_record]
    split
    · exact ⟨rfl, .field found hdeclared complete stored inner⟩
    · unfold record
      split
      · obtain ⟨hresult, m, m', hm, hm', hrel⟩ :=
          fields_agreeBut_put kind' hd.1 hdeclared stored inner
            (fun member at_ => ih (hd.2.get? hdeclared) member at_)
        have hkeys : Entries.keys (fields source.core ⟨name, declared⟩ declared held place).1 =
            Entries.keys declared := by
          rw [keys_fields fun e he => complete ▸ List.mem_map_of_mem he, complete]
        dsimp only
        rw [hm']
        exact ⟨hresult, .field found hdeclared hkeys hm hrel⟩
      · exact ⟨rfl, .field found hdeclared complete stored inner⟩

end Decode

/-! ## Resolving, then decoding -/

/-- **Choosing a type at run time is declaring it.**  Let the target of a resolver lead from a type
through fields of record types to a field of kind `any`, and let the resolver choose a type for the
source.  Then decoding with the resolver into a fresh record has the outcome of decoding into a
fresh record of the type that declares the field with the chosen type, errors included.  The two
records are counterparts: the slot of either holds the same record of the chosen type, and every
path finds the same in both, node or error, unless it ends at a record around the slot. -/
theorem Resolver.decode_specialised (r : Resolver) (source : Node) {t t' chosen : RecordType}
    (hdistinct : t.Distinct)
    (hleads : Kind.Specialised chosen r.target.elements (.ofType t) (.ofType t'))
    (hchoose : r.choose source = .ok (.ok chosen)) :
    ∃ decoded decoded' result,
      r.decode source t.zero = (decoded, (result.mapError Failure.decode).map fun _ => true) ∧
        decodeInto source t'.zero = (decoded', result) ∧
        Node.Counterpart chosen r.target.elements (.ofType t) (.ofType t') decoded decoded' ∧
        (∃ held, decoded.at? r.target = .ok (.record chosen held) ∧
          decoded'.at? r.target = .ok (.record chosen held)) ∧
        ∀ q : Path,
          (∀ found, decoded.at? q = .ok found →
            decoded.place q.elements <+: decoded.place r.target.elements →
            decoded.place q.elements = decoded.place r.target.elements) →
          decoded'.at? q = decoded.at? q := by
  obtain ⟨assigned, hassigned, hfresh⟩ := hleads.zero hdistinct
  have hset : t.zero.assignTypeAt? r.target chosen = .ok assigned :=
    Node.setAt?_eq_ok_iff.mpr (hassigned 0)
  have hassign : r.assign source t.zero = (assigned, .ok true) := by
    simp only [Resolver.assign, hchoose, hset]
  -- both fresh records are records of their types, so they are decoded as declared slots are
  obtain ⟨held, held', hrecord, hrecord'⟩ := hfresh.records
  have hinto : decodeInto source assigned = Decode.value (.ofType t) source assigned [] := by
    rw [hrecord, decodeInto_eq_value]
  have hinto' : decodeInto source t'.zero = Decode.value (.ofType t') source t'.zero [] := by
    rw [RecordType.zero, hrecord', decodeInto_eq_value]
  obtain ⟨hresult, hdecoded⟩ := Decode.value_counterpart hfresh hdistinct source []
  obtain ⟨slot, hslot⟩ := hdecoded.walk_eq
  refine ⟨_, _, (decodeInto source assigned).2, ?_, ?_, hdecoded,
    ⟨slot, Node.at?_eq_ok_iff.mpr (hslot 0).1, Node.at?_eq_ok_iff.mpr (hslot 0).2⟩, fun q hq => ?_⟩
  · rw [Resolver.decode_of_assign hassign, ← hinto]
  · rw [hinto', hinto, hresult]
    rfl
  · have hwalk := hdecoded.walk_congr q.elements 0
      fun found hfound => hq found (Node.at?_eq_ok_iff.mpr hfound)
    rw [Node.at?, Node.at?, hwalk]

/-- A discriminator chooses the type of a pet, whose place is written in other letter cases and with
a `.` on the way. -/
theorem Resolver.decode_specialised_stable :
    let horse : RecordType := ⟨"Horse", [("name", .string), ("hands", .integer)]⟩
    let stable (pet : Kind) : RecordType :=
      ⟨"Stable", [("kind", .string), ("Owner", .record "Owner" [("id", .integer), ("Pet", pet)])]⟩
    let source : Node := .mapping [("kind", .string "horse"), ("Owner", .mapping
      [("Pet", .mapping [("hands", .integer 15), ("name", .string "Bo")]), ("id", .integer 7)])]
    let r : Resolver := ⟨⟨[.name "OWNER", .self, .name "pet"], true⟩, .strict,
      .typeMap ⟨[.name "kind"], true⟩ ⟨[(.string "horse", horse)]⟩⟩
    (stable .any).Distinct ∧
      Kind.Specialised horse r.target.elements (.ofType (stable .any))
        (.ofType (stable (.ofType horse))) ∧
      r.choose source = .ok (.ok horse) ∧
      ∃ decoded, r.decode source (stable .any).zero = (decoded, .ok true) ∧
        ∃ held, decoded.at? r.target = .ok (.record horse held) := by
  intro horse stable source r
  have hdistinct : (stable .any).Distinct := by
    simp [stable, RecordType.Distinct, Kind.ofType, Kind.Distinct, Kind.FieldsDistinct,
      Entries.Distinct, Entries.keys]
  have howner : Entries.resolve? "OWNER" (stable .any).fields = some "Owner" := by
    decide +kernel
  have hpet : Entries.resolve? "pet" [("id", Kind.integer), ("Pet", .any)] = some "Pet" := by
    decide +kernel
  have hleads : Kind.Specialised horse r.target.elements (.ofType (stable .any))
      (.ofType (stable (.ofType horse))) :=
    .field howner rfl (.self (.field hpet rfl .slot))
  have hchoose : r.choose source = .ok (.ok horse) := rfl
  have hstatic : decodeInto source (stable (.ofType horse)).zero =
      (.record (stable (.ofType horse)) [("kind", .string "horse"), ("Owner", .record
        ⟨"Owner", [("id", .integer), ("Pet", .ofType horse)]⟩ [("id", .integer 7), ("Pet", .record
          horse [("name", .string "Bo"), ("hands", .integer 15)])])], .ok ()) := by
    simp [source, stable, horse, decodeInto, Decode.into, Decode.record, Decode.fields,
      Decode.value, Decode.lookup, Decode.hasMembers, Decode.scalarFor, Decode.recordFor, Kind.zero,
      Kind.zeroFields, Kind.ofType, RecordType.zero, Entries.ofList, Entries.putAll, Entries.put,
      Entries.get?, Entries.find?, Entries.resolve?, Node.core, Node.isNull, Node.string,
      Node.integer, Node.withCore, Node.record?]
  obtain ⟨decoded, decoded', result, hdecode, hinto, -, ⟨held, hslot, -⟩, -⟩ :=
    Resolver.decode_specialised r source hdistinct hleads hchoose
  rw [hstatic] at hinto
  cases hinto
  exact ⟨hdistinct, hleads, hchoose, decoded, hdecode, held, hslot⟩

end Polydoc
