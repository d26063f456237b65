/-
  Proofs/Decode/Denotation.lean --- what a source means as a value of a kind, and that this is what
  decoding into a fresh record gives.

  The meaning is said without a target: `Kind.denote` builds a value from a source, or has none for
  it.  `Kind.mismatches` lists all that keeps a source from having a meaning, in the order in which
  fields are declared and items stand, each before what comes after it.  The decoder works on a
  target in place and stops early; where all slots are fresh and no two fields share one, its result
  is the meaning, and its error is the first one listed.
-/
import Polydoc.Proofs.Binary64.Integral
import Polydoc.Proofs.Decode.Steps
import Polydoc.Proofs.Kind
import Polydoc.Proofs.Navigation.Place

set_option autoImplicit false

namespace Polydoc

/-! ## What a source means -/

namespace Node

/-- The integer that a value stands for: itself, or a float without a fraction that 64 bits hold. -/
def toInteger? (n : Node) : Option Int64 :=
  match n.scalar? with
  | some (.integer i) => some i
  | some (.float x) =>
    x.toInt?.bind fun i => if -2 ^ 63 ≤ i ∧ i < 2 ^ 63 then some (Int64.ofInt i) else none
  | _ => none

/-- The float that a value stands for: itself, or the one nearest to an integer. -/
def toFloat? (n : Node) : Option Binary64 :=
  match n.scalar? with
  | some (.float x) => some x
  | some (.integer i) => some (Binary64.ofInt i.toInt)
  | _ => none

end Node

/-- The member that stands for a field: the one under the very name, else the first one whose key
differs from it in letter case alone. -/
def fieldMember? (members : List (String × Node)) (name : String) : Option Node :=
  let exact := members.find? fun e => e.1 = name
  let folded := members.find? fun e => Text.lowercase e.1 = Text.lowercase name
  (exact.or folded).map Prod.snd

mutual

/-- The value that a source means as one of a kind.  A null means the zero value. -/
def Kind.denote (kind : Kind) (source : Node) : Option Node :=
  if source.isNull then some kind.zero
  else
    match kind with
    | .bool => source.bool?.map .bool
    | .integer => source.toInteger?.map .integer
    | .float => source.toFloat?.map .float
    | .string => source.string?.map .string
    | .any => some source.core
    | .mapping => source.mapping?.map .mapping
    | .sequence item =>
      match source.core with
      | .sequence items => (items.mapM item.denote).map .sequence
      | _ => none
    | .optional inner => (inner.denote source).map .indirect
    | .record name fields =>
      match source.members? with
      | some members => (Kind.denoteFields fields members).map (.record ⟨name, fields⟩)
      | none => none

/-- The values that the members of a source mean as fields, one for each declaration. -/
def Kind.denoteFields (fields : List (String × Kind)) (members : List (String × Node)) :
    Option (List (String × Node)) :=
  match fields with
  | [] => some []
  | (name, kind) :: rest =>
    let first :=
      match fieldMember? members name with
      | some member => kind.denote member
      | none => some kind.zero
    first.bind fun value => (Kind.denoteFields rest members).map ((name, value) :: ·)

end

mutual

/-- All that keeps a source from meaning a value of a kind: fields in the order of their
declarations and items in their own order, what is inside of one before the next one. -/
def Kind.mismatches (kind : Kind) (source : Node) (place : Decode.Place) : List Decode.Error :=
  if source.isNull then []
  else
    match kind with
    | .optional inner => inner.mismatches source place
    | .sequence item =>
      match source.core with
      | .sequence items =>
        items.zipIdx.flatMap fun e => item.mismatches e.1 (place ++ [.item e.2])
      | _ => [Decode.mismatch place (Kind.sequence item).text source]
    | .record name fields =>
      match source.members? with
      | some members => Kind.fieldMismatches fields members place
      | none => [Decode.mismatch place name source]
    | .bool | .integer | .float | .string | .any | .mapping =>
      if (kind.denote source).isSome then [] else [Decode.mismatch place kind.text source]

/-- What keeps the members of a source from meaning fields. -/
def Kind.fieldMismatches (fields : List (String × Kind)) (members : List (String × Node))
    (place : Decode.Place) : List Decode.Error :=
  match fields with
  | [] => []
  | (name, kind) :: rest =>
    let first :=
      match fieldMember? members name with
      | some member => kind.mismatches member (place ++ [.member name])
      | none => []
    first ++ Kind.fieldMismatches rest members place

end

/-! ## Looking up members -/

/-- The decoder finds the member that stands for a field. -/
theorem find?_eq_fieldMember? (name : String) (members : List (String × Node)) :
    Entries.find? name members = fieldMember? members name := by
  unfold Entries.find? Entries.resolve? fieldMember?
  rw [Option.map_or, ← Entries.get?_eq_find?, ← Entries.foldedKey?_bind_get?]
  cases hget : Entries.get? name members with
  | none => rfl
  | some value => simp [hget]

/-- The member under the very name of a field stands for the field. -/
theorem fieldMember?_of_get? {members : List (String × Node)} {name : String} {member : Node}
    (h : Entries.get? name members = some member) : fieldMember? members name = some member := by
  have hkey : Entries.resolve? name members = some name := by
    rw [Entries.resolve?, h]
    rfl
  rw [← find?_eq_fieldMember?, Entries.find?, hkey]
  exact h

theorem lookup_core {source : Node} {members : List (String × Node)}
    (h : source.members? = some members) (name : String) :
    Decode.lookup source.core name = fieldMember? members name := by
  unfold Node.members? at h
  cases hn : source.core with
  | mapping entries =>
    rw [hn] at h
    cases h
    exact find?_eq_fieldMember? name _
  | record type fields =>
    rw [hn] at h
    cases h
    exact find?_eq_fieldMember? name _
  | _ =>
    rw [hn] at h
    cases h

theorem hasMembers_core (source : Node) :
    Decode.hasMembers source.core = source.members?.isSome := by
  unfold Node.members?
  cases source.core <;> rfl

namespace Decode

/-! ## Results -/

/-- What decoding comes to: the value that is left, or the error. -/
def Outcome.result {α : Type} : Outcome α → Except Error α
  | (v, .ok _) => .ok v
  | (_, .error e) => .error e

/-- A result is the meaning, or there is none and the error is the first of those listed. -/
def Tells {α : Type} (meaning : Option α) (errors : List Error) : Except Error α → Prop
  | .ok v => meaning = some v ∧ errors = []
  | .error e => meaning = none ∧ errors.head? = some e

section Tells

variable {α β : Type} {meaning : Option α} {errors : List Error} {result : Except Error α}

theorem Tells.map (h : Tells meaning errors result) (f : α → β) :
    Tells (meaning.map f) errors (result.map f) := by
  cases result with
  | error e =>
    obtain ⟨hnone, herror⟩ := h
    rw [hnone]
    exact ⟨rfl, herror⟩
  | ok v =>
    obtain ⟨hsome, hnil⟩ := h
    rw [hsome]
    exact ⟨rfl, hnil⟩

/-- What comes second is listed second, and is decoded only if the first has a meaning. -/
theorem Tells.bind (h : Tells meaning errors result) {next : α → Option β} {later : List Error}
    {rest : α → Except Error β} (hrest : ∀ v, Tells (next v) later (rest v)) :
    Tells (meaning.bind next) (errors ++ later) (result.bind rest) := by
  cases result with
  | error e =>
    obtain ⟨hnone, herror⟩ := h
    rw [hnone]
    refine ⟨rfl, ?_⟩
    rw [List.head?_append, herror]
    rfl
  | ok v =>
    obtain ⟨hsome, hnil⟩ := h
    rw [hsome, hnil]
    exact hrest v

end Tells

/-! ## One value -/

section Value

variable {source : Node} {place : Place}

theorem tells_null (h : source.isNull = true) (kind : Kind) :
    Tells (kind.denote source) (kind.mismatches source place)
      (value kind source kind.zero place).result := by
  have hdenote : kind.denote source = some kind.zero := by rw [Kind.denote.eq_def, if_pos h]
  have hnone : kind.mismatches source place = [] := by rw [Kind.mismatches.eq_def, if_pos h]
  rw [value_null h]
  exact ⟨hdenote, hnone⟩

/-- The test and the cast that a float goes through give the integer that is its value. -/
theorem scalarFor_integer_float (x : Binary64) :
    scalarFor .integer (.scalar (.float x)) =
      (x.toInt?.bind fun i => if -2 ^ 63 ≤ i ∧ i < 2 ^ 63 then some (Int64.ofInt i) else none).map
        .integer := by
  simp only [scalarFor]
  by_cases h : x.isIntegral = true
  · obtain ⟨n, hn, hrange⟩ := Binary64.isIntegral_iff.mp h
    rw [if_pos h, Binary64.toInt64_of_toInt? hn hrange.1 hrange.2, hn, Option.bind_some,
      if_pos hrange]
    rfl
  · rw [if_neg h]
    cases hn : x.toInt? with
    | none => rfl
    | some n =>
      rw [Option.bind_some, if_neg fun hrange => h (Binary64.isIntegral_iff.mpr ⟨n, hn, hrange⟩)]
      rfl

/-- The meaning of a scalar, as the decoder finds it. -/
theorem denote_scalar {kind : Kind} (hkind : ScalarKind kind) (h : source.isNull = false) :
    kind.denote source = (scalarFor kind source.core).map .scalar := by
  have hnull : ¬ source.isNull = true := by simp [h]
  cases kind with
  | bool =>
    rw [Kind.denote, if_neg hnull]
    unfold Node.bool? Node.scalar?
    cases source.core with
    | scalar s => cases s <;> rfl
    | _ => rfl
  | integer =>
    rw [Kind.denote, if_neg hnull]
    unfold Node.toInteger? Node.scalar?
    cases source.core with
    | scalar s =>
      cases s with
      | float x =>
        rw [scalarFor_integer_float, Option.map_map]
        rfl
      | _ => rfl
    | _ => rfl
  | float =>
    rw [Kind.denote, if_neg hnull]
    unfold Node.toFloat? Node.scalar?
    cases source.core with
    | scalar s => cases s <;> rfl
    | _ => rfl
  | string =>
    rw [Kind.denote, if_neg hnull]
    unfold Node.string? Node.scalar?
    cases source.core with
    | scalar s => cases s <;> rfl
    | _ => rfl
  | _ => exact hkind.elim

/-- The kinds whose values have no parts that are decoded. -/
def LeafKind : Kind → Prop
  | .sequence _ => False
  | .optional _ => False
  | .record _ _ => False
  | _ => True

theorem mismatches_leaf {kind : Kind} (hkind : LeafKind kind) (h : source.isNull = false) :
    kind.mismatches source place =
      if (kind.denote source).isSome then [] else [mismatch place kind.text source] := by
  have hnull : ¬ source.isNull = true := by simp [h]
  cases kind with
  | sequence item => exact hkind.elim
  | optional inner => exact hkind.elim
  | record name fields => exact hkind.elim
  | _ => rw [Kind.mismatches.eq_def, if_neg hnull]

/-- A leaf is decoded if it has a meaning, else it is the one mismatch. -/
theorem tells_leaf {kind : Kind} (hkind : LeafKind kind) (h : source.isNull = false)
    {slot : Node} (hvalue : value kind source slot place =
      match kind.denote source with
      | some v => (v, .ok ())
      | none => (slot, .error (mismatch place kind.text source))) :
    Tells (kind.denote source) (kind.mismatches source place)
      (value kind source slot place).result := by
  rw [mismatches_leaf hkind h, hvalue]
  cases kind.denote source with
  | some v => exact ⟨rfl, rfl⟩
  | none => exact ⟨rfl, rfl⟩

theorem tells_scalar {kind : Kind} (hkind : ScalarKind kind) (h : source.isNull = false)
    {slot : Node} :
    Tells (kind.denote source) (kind.mismatches source place)
      (value kind source slot place).result := by
  have hleaf : LeafKind kind := by
    cases kind with
    | sequence item => exact hkind
    | optional inner => exact hkind
    | record name fields => exact hkind
    | _ => trivial
  refine tells_leaf hleaf h ?_
  rw [value_scalar hkind h, denote_scalar hkind h]
  cases scalarFor kind source.core with
  | some s => rfl
  | none => rfl

theorem tells_mapping (h : source.isNull = false) {slot : Node} :
    Tells (Kind.mapping.denote source) (Kind.mapping.mismatches source place)
      (value .mapping source slot place).result := by
  have hdenote : Kind.mapping.denote source = source.mapping?.map .mapping := by
    rw [Kind.denote, if_neg (by simp [h])]
  have hleaf : LeafKind .mapping := trivial
  refine tells_leaf hleaf h ?_
  rw [hdenote, Node.mapping?]
  cases hn : source.core with
  | mapping entries => exact value_mapping hn
  | _ => exact value_mapping_mismatch h fun entries he => by simp [hn] at he

theorem tells_any (h : source.isNull = false) :
    Tells (Kind.any.denote source) (Kind.any.mismatches source place)
      (value .any source Kind.any.zero place).result := by
  have hdenote : Kind.any.denote source = some source.core := by
    rw [Kind.denote, if_neg (by simp [h])]
  have hleaf : LeafKind .any := trivial
  refine tells_leaf hleaf h ?_
  rw [hdenote, value_any h, Kind.zero, into_of_other]
  · rfl
  · intro type held hcore
    cases hcore
  · intro entries values hcore
    cases hcore

/-! ## Kinds with parts -/

theorem result_sequence_cons (item : Kind) (rest : List Node) (index : Nat) :
    sequence item (source :: rest) place index =
      (value item source item.zero (place ++ [.item index])).result.bind fun first =>
        (sequence item rest place (index + 1)).map (first :: ·) := by
  rw [sequence_cons]
  cases value item source item.zero (place ++ [.item index]) with
  | mk first result =>
    cases result with
    | error e => rfl
    | ok _ => cases sequence item rest place (index + 1) <;> rfl

theorem result_sequence {items : List Node} (h : source.core = .sequence items) (item : Kind)
    (slot : Node) :
    (value (.sequence item) source slot place).result =
      (sequence item items place 0).map Node.sequence := by
  rw [value_sequence h]
  cases sequence item items place 0 <;> rfl

theorem result_optional (h : source.isNull = false) (inner : Kind) (slot : Node) :
    (value (.optional inner) source slot place).result =
      (value inner source inner.zero place).result.map Node.indirect := by
  rw [value_optional h]
  cases value inner source inner.zero place with
  | mk decoded result => cases result <;> rfl

theorem tells_items {item : Kind}
    (hitem : ∀ (source : Node) (place : Place), Tells (item.denote source)
      (item.mismatches source place) (value item source item.zero place).result)
    (items : List Node) :
    ∀ (index : Nat), Tells (items.mapM item.denote)
      ((items.zipIdx index).flatMap fun e => item.mismatches e.1 (place ++ [.item e.2]))
      (sequence item items place index) := by
  induction items with
  | nil =>
    intro index
    rw [sequence_nil]
    exact ⟨rfl, rfl⟩
  | cons source rest ih =>
    intro index
    have hmeaning : (source :: rest).mapM item.denote =
        (item.denote source).bind fun first => (rest.mapM item.denote).map (first :: ·) := by
      rw [List.mapM_cons]
      cases item.denote source with
      | none => rfl
      | some first => cases rest.mapM item.denote <;> rfl
    rw [hmeaning, List.zipIdx_cons, List.flatMap_cons, result_sequence_cons]
    exact (hitem source (place ++ [.item index])).bind fun first =>
      (ih (index + 1)).map (first :: ·)

theorem tells_sequence (h : source.isNull = false) {item : Kind}
    (hitem : ∀ (source : Node) (place : Place), Tells (item.denote source)
      (item.mismatches source place) (value item source item.zero place).result) {slot : Node} :
    Tells ((Kind.sequence item).denote source) ((Kind.sequence item).mismatches source place)
      (value (.sequence item) source slot place).result := by
  have hnull : ¬ source.isNull = true := by simp [h]
  rw [Kind.denote, if_neg hnull, Kind.mismatches, if_neg hnull]
  by_cases hitems : ∃ items, source.core = .sequence items
  · obtain ⟨items, hi⟩ := hitems
    rw [result_sequence hi, hi]
    exact (tells_items hitem items 0).map Node.sequence
  · have hne : ∀ items, source.core ≠ .sequence items := fun items hi => hitems ⟨items, hi⟩
    rw [value_sequence_mismatch h hne]
    cases hn : source.core with
    | sequence items => exact absurd hn (hne items)
    | _ => exact ⟨rfl, rfl⟩

theorem tells_optional (h : source.isNull = false) {inner : Kind}
    (hinner : Tells (inner.denote source) (inner.mismatches source place)
      (value inner source inner.zero place).result) {slot : Node} :
    Tells ((Kind.optional inner).denote source) ((Kind.optional inner).mismatches source place)
      (value (.optional inner) source slot place).result := by
  have hnull : ¬ source.isNull = true := by simp [h]
  rw [Kind.denote, if_neg hnull, Kind.mismatches, if_neg hnull, result_optional h]
  exact hinner.map Node.indirect

/-- A field whose slot follows values of other names is decoded there, and the others follow. -/
theorem result_fields_cons {type : RecordType} {name : String} {kind : Kind} {member : Node}
    (h : lookup source name = some member) {done more : List (String × Node)} {slot : Node}
    (hname : name ∉ Entries.keys done) (rest : List (String × Kind)) :
    (fields source type ((name, kind) :: rest) (done ++ (name, slot) :: more) place).result =
      (value kind member slot (place ++ [.member name])).result.bind fun decoded =>
        (fields source type rest (done ++ (name, decoded) :: more) place).result := by
  have hslot : slotOf type name (done ++ (name, slot) :: more) = slot := by
    rw [slotOf, Entries.get?_append_cons hname]
  rw [fields_cons_some h, hslot]
  cases value kind member slot (place ++ [.member name]) with
  | mk decoded result =>
    cases result with
    | error e => rfl
    | ok _ =>
      dsimp only
      rw [Entries.put_append_cons hname]
      rfl

/-- A record is its fields, if the source has members. -/
theorem tells_record (h : source.isNull = false) {name : String} {declared : List (String × Kind)}
    (hd : Entries.Distinct declared)
    (hfields : ∀ members, source.members? = some members →
      Tells (Kind.denoteFields declared members) (Kind.fieldMismatches declared members place)
        (fields source.core ⟨name, declared⟩ declared (Kind.zeroFields declared) place).result) :
    Tells ((Kind.record name declared).denote source)
      ((Kind.record name declared).mismatches source place)
      (value (.record name declared) source (Kind.record name declared).zero place).result := by
  have hnull : ¬ source.isNull = true := by simp [h]
  rw [value_zero_record h hd, Kind.denote, if_neg hnull, Kind.mismatches, if_neg hnull, record,
    hasMembers_core]
  cases hm : source.members? with
  | none =>
    have hfound : mismatch place name source.core = mismatch place name source := by
      rw [mismatch, mismatch, Node.kindName, Node.kindName, Node.core_core]
    exact ⟨rfl, congrArg some hfound.symm⟩
  | some members =>
    have htells := (hfields members hm).map (Node.record ⟨name, declared⟩)
    rw [if_pos (by rfl)]
    cases hf : fields source.core ⟨name, declared⟩ declared (Kind.zeroFields declared) place with
    | mk held result =>
      rw [hf] at htells
      cases result with
      | error e => exact htells
      | ok _ => exact htells

end Value

/-! ## All kinds -/

mutual

/-- Decoding into a fresh value gives the meaning of the source. -/
theorem value_tells : (kind : Kind) → kind.Distinct → ∀ (source : Node) (place : Place),
    Tells (kind.denote source) (kind.mismatches source place)
      (value kind source kind.zero place).result := by
  intro kind hd source place
  cases hnull : source.isNull with
  | true => exact tells_null hnull kind
  | false =>
    cases kind with
    | bool => exact tells_scalar (show ScalarKind .bool from trivial) hnull
    | integer => exact tells_scalar (show ScalarKind .integer from trivial) hnull
    | float => exact tells_scalar (show ScalarKind .float from trivial) hnull
    | string => exact tells_scalar (show ScalarKind .string from trivial) hnull
    | any => exact tells_any hnull
    | mapping => exact tells_mapping hnull
    | sequence item => exact tells_sequence hnull (value_tells item hd)
    | optional inner => exact tells_optional hnull (value_tells inner hd source place)
    | record name fields =>
      have hzero : Entries.Distinct (Kind.zeroFields fields) := by
        unfold Entries.Distinct
        rw [Kind.keys_zeroFields]
        exact hd.1
      refine tells_record hnull hd.1 fun members hm => ?_
      have htells := fields_tell fields hd.2 source.core members ⟨name, fields⟩ place
        (lookup_core hm) [] hzero
      simpa using htells

/-- Decoding into fresh fields, behind those that are decoded already. -/
theorem fields_tell : (todo : List (String × Kind)) → Kind.FieldsDistinct todo →
    ∀ (source : Node) (members : List (String × Node)) (type : RecordType) (place : Place),
      (∀ name, lookup source name = fieldMember? members name) →
      ∀ done : List (String × Node), Entries.Distinct (done ++ Kind.zeroFields todo) →
      Tells ((Kind.denoteFields todo members).map (done ++ ·))
        (Kind.fieldMismatches todo members place)
        (fields source type todo (done ++ Kind.zeroFields todo) place).result
  | [], _ => by
    intro source members type place _ done _
    rw [fields_nil]
    exact ⟨rfl, rfl⟩
  | (name, kind) :: rest, hd => by
    intro source members type place hlookup done hdistinct
    have hkeys (decoded : Node) :
        Entries.keys ((done ++ [(name, decoded)]) ++ Kind.zeroFields rest) =
          Entries.keys (done ++ Kind.zeroFields ((name, kind) :: rest)) := by
      simp [Entries.keys, Kind.zeroFields]
    have hname : name ∉ Entries.keys done := by
      unfold Entries.Distinct at hdistinct
      rw [Entries.keys, List.map_append, List.nodup_append] at hdistinct
      intro hmem
      exact hdistinct.2.2 name hmem name List.mem_cons_self rfl
    -- whatever the field holds by then, the others are decoded behind it
    have hrest (decoded : Node) :
        Tells ((Kind.denoteFields rest members).map ((done ++ [(name, decoded)]) ++ ·))
          (Kind.fieldMismatches rest members place)
          (fields source type rest (done ++ (name, decoded) :: Kind.zeroFields rest)
            place).result := by
      have hdistinct' : Entries.Distinct ((done ++ [(name, decoded)]) ++ Kind.zeroFields rest) := by
        unfold Entries.Distinct
        rw [hkeys decoded]
        exact hdistinct
      have h := fields_tell rest hd.2 source members type place hlookup _ hdistinct'
      rw [List.append_assoc] at h
      exact h
    have hmeaning (first : Option Node) :
        (first.bind fun value => (Kind.denoteFields rest members).map ((name, value) :: ·)).map
            (done ++ ·) =
          first.bind fun value =>
            (Kind.denoteFields rest members).map ((done ++ [(name, value)]) ++ ·) := by
      cases first with
      | none => rfl
      | some value =>
        cases Kind.denoteFields rest members with
        | none => rfl
        | some more => simp
    rw [Kind.denoteFields, Kind.fieldMismatches, Kind.zeroFields, hmeaning]
    cases hm : fieldMember? members name with
    | none =>
      rw [fields_cons_none (by rw [hlookup, hm])]
      exact hrest kind.zero
    | some member =>
      rw [result_fields_cons (by rw [hlookup, hm]) hname]
      exact (value_tells kind hd.1 member (place ++ [.member name])).bind hrest

end

end Decode

/-! ## Decoding into a fresh record -/

/-- Decoding into a fresh record succeeds with the meaning of the source, if it has one. -/
theorem decodeInto_zero_ok_iff {t : RecordType} (h : t.Distinct) {source v : Node} :
    decodeInto source t.zero = (v, .ok ()) ↔ (Kind.ofType t).denote source = some v := by
  have htells := Decode.value_tells (.ofType t) h source []
  rw [← decodeInto_zero] at htells
  cases hd : decodeInto source t.zero with
  | mk decoded result =>
    rw [hd] at htells
    cases result with
    | error e =>
      have hnone : (Kind.ofType t).denote source = none := htells.1
      simp [hnone]
    | ok _ =>
      have hsome : (Kind.ofType t).denote source = some decoded := htells.1
      simp [hsome]

/-- **Decoding is what the source means.**  Into a fresh record of a type that declares no name
twice, decoding succeeds exactly if the source has a meaning as a record of the type, and leaves
that meaning; it fails exactly if something in the source does not fit, with the first mismatch in
the order of the declarations. -/
theorem decodeInto_denotes {t : RecordType} (h : t.Distinct) (source : Node) :
    (∀ v, decodeInto source t.zero = (v, .ok ()) ↔ (Kind.ofType t).denote source = some v) ∧
      (∀ e, (decodeInto source t.zero).2 = .error e ↔
        ((Kind.ofType t).mismatches source []).head? = some e) ∧
      ((Kind.ofType t).denote source = none ↔ (Kind.ofType t).mismatches source [] ≠ []) := by
  have hzero : t.zero = .record t (Kind.zeroFields t.fields) := Kind.zero_record h.1
  have htells := Decode.value_tells (.ofType t) h source []
  have hvalue : Decode.value (.ofType t) source (Kind.ofType t).zero [] =
      decodeInto source t.zero := by
    rw [hzero, decodeInto_eq_value, ← hzero]
    rfl
  rw [hvalue] at htells
  cases hd : decodeInto source t.zero with
  | mk decoded result =>
    rw [hd] at htells
    cases result with
    | error e =>
      obtain ⟨hnone, herror⟩ := htells
      have hne : (Kind.ofType t).mismatches source [] ≠ [] := by
        intro hnil
        rw [hnil] at herror
        cases herror
      rw [hnone, herror]
      exact ⟨by simp, by simp, by simp [hne]⟩
    | ok _ =>
      obtain ⟨hsome, hnil⟩ := htells
      rw [hsome, hnil]
      exact ⟨by simp, by simp, by simp⟩

/-- Numbers pass between their kinds, null fields and items are zero values, a field is found in
other letter cases, and the first of two mismatches is reported. -/
theorem decodeInto_denotes_order :
    let order : RecordType := ⟨"Order", [("id", .integer), ("total", .float),
      ("note", .optional .string), ("lines", .sequence (.record "Line" [("count", .integer)]))]⟩
    let line : RecordType := ⟨"Line", [("count", .integer)]⟩
    let source : Node := .mapping [("lines", .sequence [.mapping [("count", .integer 2)], .null]),
      ("total", .integer 0), ("note", .string "late"), ("id", .null)]
    let broken : Node := .mapping [("lines", .sequence [.mapping [("count", .integer 2)],
      .mapping [("count", .string "two")], .bool true]), ("ID", .integer 7)]
    order.Distinct ∧
      decodeInto source order.zero =
        (.record order [("id", .integer 0), ("total", .float (Binary64.ofInt 0)),
          ("note", .indirect (.string "late")), ("lines", .sequence
            [.record line [("count", .integer 2)], .record line [("count", .integer 0)]])],
          .ok ()) ∧
      (decodeInto broken order.zero).2 =
        .error ⟨[.member "lines", .item 1, .member "count"], "integer", "string"⟩ := by
  intro order line source broken
  have hdistinct : order.Distinct := by
    simp [order, RecordType.Distinct, Kind.ofType, Kind.Distinct, Kind.FieldsDistinct,
      Entries.Distinct, Entries.keys]
  exact ⟨hdistinct, ((decodeInto_denotes hdistinct source).1 _).mpr rfl,
    ((decodeInto_denotes hdistinct broken).2.1 _).mpr rfl⟩

end Polydoc
