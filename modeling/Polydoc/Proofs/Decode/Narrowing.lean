/-
  Proofs/Decode/Narrowing.lean --- an integer that is decoded as a float, then as an integer again.

  Decoding keeps places: what a source holds at a leaf of a kind stands at the same place in the
  tree that decoding leaves, converted to the kind of the leaf.  So two decodings after one another
  come to two conversions.  The first one takes an integer to the double nearest to it, the second
  one takes a double that is an integer to that integer, and together they give back the integers
  that are values of doubles, and no others.
-/
import Polydoc.Proofs.Binary64.Nearest
import Polydoc.Proofs.Decode.Integers
import Polydoc.Proofs.Decode.Slots
import Polydoc.Proofs.Node.Fitting

set_option autoImplicit false

namespace Polydoc

/-! ## Kinds with integers in place of floats -/

mutual

/-- The second kind has the shape of the first one, with integers in place of floats.  Record types
may have other names. -/
inductive Kind.Narrows : Kind → Kind → Prop where
  | float : Narrows .float .integer
  | bool : Narrows .bool .bool
  | integer : Narrows .integer .integer
  | string : Narrows .string .string
  | any : Narrows .any .any
  | mapping : Narrows .mapping .mapping
  | sequence {item item' : Kind} (items : Narrows item item') :
      Narrows (.sequence item) (.sequence item')
  | optional {inner inner' : Kind} (value : Narrows inner inner') :
      Narrows (.optional inner) (.optional inner')
  | record {name name' : String} {fields fields' : List (String × Kind)}
      (each : FieldsNarrow fields fields') : Narrows (.record name fields) (.record name' fields')

/-- The second fields have the names of the first ones and the shape of their kinds, with integers
in place of floats. -/
inductive Kind.FieldsNarrow : List (String × Kind) → List (String × Kind) → Prop where
  | nil : FieldsNarrow [] []
  | cons {key : String} {kind kind' : Kind} {rest rest' : List (String × Kind)}
      (first : Narrows kind kind') (others : FieldsNarrow rest rest') :
      FieldsNarrow ((key, kind) :: rest) ((key, kind') :: rest')

end

namespace Kind

theorem FieldsNarrow.keys {fields fields' : List (String × Kind)}
    (h : FieldsNarrow fields fields') : Entries.keys fields' = Entries.keys fields := by
  induction fields generalizing fields' with
  | nil =>
    cases h
    rfl
  | cons e rest ih =>
    cases h with
    | cons _ others => exact congrArg (_ :: ·) (ih others)

/-- A field that is declared once has one counterpart. -/
theorem FieldsNarrow.once {key : String} {kind : Kind} {fields fields' : List (String × Kind)}
    (h : FieldsNarrow fields fields') (honce : Entries.Once key kind fields) :
    ∃ kind', Entries.Once key kind' fields' ∧ kind.Narrows kind' := by
  obtain ⟨before, after, rfl, hbefore, hafter⟩ := honce
  induction before generalizing fields' with
  | nil =>
    cases h with
    | cons first others =>
      exact ⟨_, ⟨[], _, rfl, hbefore, others.keys ▸ hafter⟩, first⟩
  | cons e rest ih =>
    cases h with
    | cons _ others =>
      simp only [Entries.keys, List.map_cons, List.mem_cons, not_or] at hbefore
      obtain ⟨kind', ⟨before', after', rfl, hbefore', hafter'⟩, hnarrows⟩ := ih others hbefore.2
      refine ⟨kind', ⟨_ :: before', after', rfl, ?_, hafter'⟩, hnarrows⟩
      simp only [Entries.keys, List.map_cons, List.mem_cons, not_or]
      exact ⟨hbefore.1, hbefore'⟩

end Kind

namespace Decode

/-! ## Leaves -/

/-- At a place inside a source of a kind stands a scalar, where the kind has a leaf: the kind of a
single scalar.  Fields on the way are declared once, and their members are the ones that the decoder
finds; layers of optional values are no steps. -/
inductive HoldsAt (leaf : Kind) (s : Scalar) : Kind → Node → Place → Prop where
  | leaf {source : Node} (here : source.core = .scalar s) : HoldsAt leaf s leaf source []
  | item {item : Kind} {source n : Node} {items : List Node} {index : ℕ} {place : Place}
      (hcore : source.core = .sequence items) (stored : items[index]? = some n)
      (inner : HoldsAt leaf s item n place) :
      HoldsAt leaf s (.sequence item) source (.item index :: place)
  | optional {inner : Kind} {source : Node} {place : Place}
      (value : HoldsAt leaf s inner source place) : HoldsAt leaf s (.optional inner) source place
  | field {key name : String} {fields : List (String × Kind)} {kind : Kind}
      {source member : Node} {place : Place} (once : Entries.Once key kind fields)
      (found : lookup source.core key = some member) (inner : HoldsAt leaf s kind member place) :
      HoldsAt leaf s (.record name fields) source (.member key :: place)

section Leaves

variable {leaf kind : Kind} {s : Scalar} {source : Node} {place : Place}

theorem HoldsAt.isNull (h : HoldsAt leaf s kind source place) : source.isNull = false := by
  induction h with
  | leaf here => rw [Node.isNull, here]
  | item hcore _ _ => rw [Node.isNull, hcore]
  | optional _ ih => exact ih
  | @field key _ _ _ source _ _ _ found _ =>
    cases hnull : source.isNull with
    | false => rfl
    | true =>
      rw [lookup_of_isNull hnull] at found
      cases found

/-- A layer around a value is not seen. -/
theorem HoldsAt.indirect (h : HoldsAt leaf s kind source place) :
    HoldsAt leaf s kind (.indirect source) place := by
  induction h with
  | leaf here => exact .leaf here
  | item hcore stored inner => exact .item hcore stored inner
  | optional _ ih => exact .optional ih
  | field once found inner => exact .field once found inner

/-- At a place stands one scalar. -/
theorem HoldsAt.unique {t : Scalar} (h : HoldsAt leaf s kind source place)
    (hleaf : ScalarKind leaf) (h' : HoldsAt leaf t kind source place) : s = t := by
  induction h with
  | leaf here =>
    cases h' with
    | leaf here' =>
      rw [here] at here'
      cases here'
      rfl
    | optional _ => exact hleaf.elim
  | item hcore stored _ ih =>
    cases h' with
    | item hcore' stored' inner =>
      rw [hcore] at hcore'
      cases hcore'
      rw [stored] at stored'
      cases stored'
      exact ih inner
  | optional _ ih =>
    cases h' with
    | leaf _ => exact hleaf.elim
    | optional value => exact ih value
  | field once found _ ih =>
    cases h' with
    | field once' found' inner =>
      rw [found] at found'
      cases found'
      cases once.unique once'
      exact ih inner

/-- A float position is an integer position of the kind with integers in place of floats. -/
theorem HoldsAt.narrow {kind' : Kind} (h : HoldsAt .float s kind source place)
    (hnarrows : kind.Narrows kind') : HoldsAt .integer s kind' source place := by
  induction h generalizing kind' with
  | leaf here =>
    cases hnarrows
    exact .leaf here
  | item hcore stored _ ih =>
    cases hnarrows with
    | sequence items => exact .item hcore stored (ih items)
  | optional _ ih =>
    cases hnarrows with
    | optional value => exact .optional (ih value)
  | field once found _ ih =>
    cases hnarrows with
    | record each =>
      obtain ⟨inner', once', hinner⟩ := each.once once
      exact .field once' found (ih hinner)

end Leaves

/-! ## Decoding keeps places -/

/-- Each item of a decoded sequence is decoded from the item of the source that has its index. -/
theorem getElem?_of_sequence {item : Kind} {items decoded : List Node} {place : Place} {n : Node}
    {start index : ℕ} (h : sequence item items place start = .ok decoded)
    (hitem : items[index]? = some n) :
    ∃ m inner, value item n item.zero inner = (m, .ok ()) ∧ decoded[index]? = some m := by
  induction items generalizing start index decoded with
  | nil => cases hitem
  | cons source rest ih =>
    obtain ⟨first, more, hfirst, hrest, rfl⟩ := sequence_cons_ok h
    cases index with
    | zero =>
      cases hitem
      exact ⟨first, _, hfirst, rfl⟩
    | succ index =>
      obtain ⟨m, inner, hvalue, hindex⟩ := ih hrest hitem
      exact ⟨m, inner, hvalue, hindex⟩

/-- A member of the very name of a field is found for it. -/
theorem lookup_of_get? {source n : Node} {members : List (String × Node)} {key : String}
    (hmembers : source.members? = some members) (h : Entries.get? key members = some n) :
    lookup source.core key = some n :=
  (lookup_core hmembers key).trans (fieldMember?_of_get? h)

/-- The slot of a field that is declared once fits its kind. -/
theorem slotOf_fits {type : RecordType} {held : List (String × Node)} {key : String} {kind : Kind}
    (h : type.Conforms held) (once : Entries.Once key kind type.fields) :
    kind.Fits (slotOf type key held) := by
  have hdeclared : (key, kind) ∈ type.fields := by
    obtain ⟨before, after, hfields, -, -⟩ := once
    rw [hfields]
    exact List.mem_append_right _ List.mem_cons_self
  have hkey : key ∈ Entries.keys held := h.mem_keys_iff.mpr (List.mem_map_of_mem hdeclared)
  obtain ⟨slot, hslot⟩ := Entries.exists_get?_of_mem hkey
  obtain ⟨kind', hdeclared', hfits⟩ := h.values key slot (Entries.mem_of_get? hslot)
  have hsame : kind' = kind := once.eq_of_mem hdeclared'
  subst hsame
  rw [slotOf, hslot]
  exact hfits

/-- A record that a source with members is decoded into gets its fields from them. -/
theorem fields_of_value {name : String} {declared : List (String × Kind)}
    {source slot decoded : Node} {place : Place} (hnull : source.isNull = false)
    (hslot : (Kind.record name declared).Fits slot)
    (h : value (.record name declared) source slot place = (decoded, .ok ())) :
    ∃ held left, RecordType.Conforms ⟨name, declared⟩ held ∧
      fields source.core ⟨name, declared⟩ declared held place = (left, .ok ()) ∧
      decoded = .record ⟨name, declared⟩ left := by
  cases hslot with
  | @record _ _ held kindOf names mem values =>
    have hconforms : RecordType.Conforms ⟨name, declared⟩ held :=
      Kind.fits_record_iff.mp (.record kindOf names mem values)
    rw [value_record source name declared ⟨name, declared⟩ rfl, into_record,
      if_neg (by simp [hnull])] at h
    unfold record at h
    split at h
    · cases hf : fields source.core ⟨name, declared⟩ declared held place with
      | mk left result =>
        rw [hf] at h
        cases h
        exact ⟨held, left, hconforms, hf, rfl⟩
    · cases h

/-- **Decoding keeps places.**  What stands at a leaf is converted to the kind of the leaf, and
stands at the same place in what is decoded. -/
theorem HoldsAt.decoded {leaf kind : Kind} {s : Scalar} {source slot decoded : Node}
    {inner place : Place} (h : HoldsAt leaf s kind source inner) (hleaf : ScalarKind leaf)
    (hslot : kind.Fits slot)
    (hdecoded : value kind source slot place = (decoded, .ok ())) :
    ∃ t, scalarFor leaf (.scalar s) = some t ∧ HoldsAt leaf t kind decoded inner := by
  induction h generalizing slot decoded place with
  | @leaf source here =>
    have hnull : source.isNull = false := by rw [Node.isNull, here]
    rw [value_scalar hleaf hnull, here] at hdecoded
    cases ht : scalarFor leaf (.scalar s) with
    | none =>
      rw [ht] at hdecoded
      cases hdecoded
    | some t =>
      rw [ht] at hdecoded
      cases hdecoded
      exact ⟨t, rfl, .leaf rfl⟩
  | @item item source n items index place' hcore stored inner ih =>
    rw [value_sequence hcore] at hdecoded
    cases hitems : sequence item items place 0 with
    | error e =>
      rw [hitems] at hdecoded
      cases hdecoded
    | ok more =>
      rw [hitems] at hdecoded
      cases hdecoded
      obtain ⟨m, there, hm, hindex⟩ := getElem?_of_sequence hitems stored
      obtain ⟨t, ht, hholds⟩ := ih item.zero_fits hm
      exact ⟨t, ht, .item rfl hindex hholds⟩
  | @optional inner source place' value ih =>
    rw [value_optional value.isNull] at hdecoded
    cases hvalue : Decode.value inner source inner.zero place with
    | mk m result =>
      rw [hvalue] at hdecoded
      cases result with
      | error e => cases hdecoded
      | ok _ =>
        cases hdecoded
        obtain ⟨t, ht, hholds⟩ := ih inner.zero_fits hvalue
        exact ⟨t, ht, .optional hholds.indirect⟩
  | @field key name fields kind source member place' once found inner ih =>
    have hholds : HoldsAt leaf s (.record name fields) source (.member key :: place') :=
      .field once found inner
    obtain ⟨held, left, hconforms, hfields, rfl⟩ := fields_of_value hholds.isNull hslot hdecoded
    rcases fields_once once hfields with ⟨hnone, -⟩ | ⟨member', m, hmember, hm, hget⟩
    · rw [found] at hnone
      cases hnone
    · rw [found] at hmember
      cases hmember
      obtain ⟨t, ht, hholds⟩ := ih (slotOf_fits hconforms once) hm
      exact ⟨t, ht, .field once (lookup_of_get? rfl hget) hholds⟩

/-! ## There and back -/

/-- The integer that a float is taken to is its value. -/
theorem integer_of_float {x : Binary64} {t : Scalar}
    (h : scalarFor .integer (.scalar (.float x)) = some t) :
    ∃ j : Int64, t = .integer j ∧ (j.toInt : ℚ) = x.value := by
  have hholds : HoldsIntegers .integer (.scalar (.float x)) (.scalar t) :=
    (holdsIntegers_integer _ _).mpr ⟨t, h, rfl⟩
  rcases hholds with ⟨i, hi, -⟩ | ⟨y, n, i, hy, -, hvalue, -, -, hi, ht⟩
  · cases hi
  · cases hy
    cases ht
    exact ⟨i, rfl, by rw [hi, hvalue]⟩

theorem natAbs_toInt_lt (i : Int64) : i.toInt.natAbs < 2 ^ 64 := by
  have hlow := i.le_toInt
  have hhigh := i.toInt_lt
  omega

/-- What becomes of an integer at a float position.  In the tree that decoding has left there stands
the double nearest to it.  Where that tree is decoded as one of the kind with integers in place of
floats, without an error, there stands the integer that the double is: the first one again just if
that is the value of a double, as those up to two to the 53rd are. -/
def ThroughFloat (i : Int64) (kind kind' : Kind) (place : Place) (wide : Node)
    (second : Outcome Node) : Prop :=
  ∃ x : Binary64, HoldsAt .float (.float x) kind wide place ∧ x.Nearest i.toInt ∧
    ∀ narrow, second = (narrow, .ok ()) →
      ∃ j : Int64, HoldsAt .integer (.integer j) kind' narrow place ∧ (j.toInt : ℚ) = x.value ∧
        (j = i ↔ ∃ y : Binary64, y.isFinite = true ∧ y.value = i.toInt) ∧
        (i.toInt.natAbs ≤ 2 ^ 53 → j = i)

theorem value_throughFloat {i : Int64} {kind kind' : Kind} {source slot slot' wide : Node}
    {inner place place' : Place} (h : HoldsAt .float (.integer i) kind source inner)
    (hnarrows : kind.Narrows kind') (hslot : kind.Fits slot) (hslot' : kind'.Fits slot')
    (hwide : value kind source slot place = (wide, .ok ())) :
    ThroughFloat i kind kind' inner wide (value kind' wide slot' place') := by
  obtain ⟨t, ht, hfloat⟩ := h.decoded trivial hslot hwide
  cases ht
  have hnearest : (Binary64.ofInt i.toInt).Nearest i.toInt :=
    Binary64.nearest_ofInt (natAbs_toInt_lt i)
  refine ⟨_, hfloat, hnearest, fun narrow hnarrow => ?_⟩
  obtain ⟨t, ht, hinteger⟩ := (hfloat.narrow hnarrows).decoded trivial hslot' hnarrow
  obtain ⟨j, rfl, hj⟩ := integer_of_float ht
  have hsame : j = i ↔ (Binary64.ofInt i.toInt).value = i.toInt := by
    rw [← hj, Int.cast_inj, Int64.toInt_inj]
  have hback := hsame.trans hnearest.value_eq_iff
  exact ⟨j, hinteger, hj, hback, fun hsmall => hback.mpr (Binary64.exists_value_eq hsmall)⟩

end Decode

open Decode

/-- A record of one field is decoded through it. -/
theorem decodeInto_single {source member slot decoded : Node} {name key : String} {kind : Kind}
    (hmembers : source.members? ≠ none) (hfound : lookup source.core key = some member)
    (hvalue : Decode.value kind member slot [.member key] = (decoded, .ok ())) :
    decodeInto source (.record ⟨name, [(key, kind)]⟩ [(key, slot)]) =
      (.record ⟨name, [(key, kind)]⟩ [(key, decoded)], .ok ()) := by
  have hget : Entries.get? key [(key, slot)] = some slot := by rw [Entries.get?, if_pos rfl]
  have hput : Entries.put key decoded [(key, slot)] = [(key, decoded)] := by
    rw [Entries.put, if_pos rfl]
  have hslot : slotOf ⟨name, [(key, kind)]⟩ key [(key, slot)] = slot := by rw [slotOf, hget]
  rw [decodeInto_fields hmembers rfl, fields_cons_some hfound, hslot, List.nil_append, hvalue]
  dsimp only
  rw [fields_nil, hput]
  rfl

/-- **An integer that was decoded as a float comes back if a double has its value.**  A source holds
an integer where a kind has a float, and is decoded into a slot that fits the kind, or into a record
of its type.  What that leaves is decoded once more, as one of the kind with integers in place of
floats. -/
theorem integer_through_float :
    (∀ i kind kind' source slot slot' inner place place' wide,
      HoldsAt .float (.integer i) kind source inner → kind.Narrows kind' →
      kind.Fits slot → kind'.Fits slot' →
      Decode.value kind source slot place = (wide, .ok ()) →
      ThroughFloat i kind kind' inner wide (Decode.value kind' wide slot' place')) ∧
    ∀ i type type' source held held' inner wide,
      HoldsAt .float (.integer i) (.ofType type) source inner →
      (Kind.ofType type).Narrows (.ofType type') →
      RecordType.Conforms type held → RecordType.Conforms type' held' →
      decodeInto source (.record type held) = (wide, .ok ()) →
      ThroughFloat i (.ofType type) (.ofType type') inner wide
        (decodeInto wide (.record type' held')) := by
  constructor
  · intro i kind kind' source slot slot' inner place place' wide h hnarrows hslot hslot' hwide
    exact value_throughFloat h hnarrows hslot hslot' hwide
  · intro i type type' source held held' inner wide h hnarrows hheld hheld' hwide
    rw [decodeInto_eq_value] at hwide ⊢
    exact value_throughFloat h hnarrows (Kind.fits_record_iff.mpr hheld)
      (Kind.fits_record_iff.mpr hheld') hwide

/-- The second item of a sequence of optional values, whose field is found in another letter case.
No double has its value, and the integer next to it comes back. -/
theorem integer_through_float_samples :
    let samples (leaf : Kind) : RecordType := ⟨"Samples", [("Values", .sequence (.optional leaf))]⟩
    let held : List (String × Node) := [("Values", .sequence [])]
    let i : Int64 := -9007199254740993
    let j : Int64 := -9007199254740992
    let items : Node := .sequence [.null, .integer i]
    let floats : Node := .sequence [.null, .indirect (.float ⟨0xC340000000000000⟩)]
    let wide : Node := .record (samples .float) [("Values", floats)]
    let narrow : Node := .record (samples .integer)
      [("Values", .sequence [.null, .indirect (.integer j)])]
    (HoldsAt .float (.integer i) (.ofType (samples .float)) (.mapping [("values", items)])
        [.member "Values", .item 1] ∧
      decodeInto (.mapping [("values", items)]) (.record (samples .float) held) = (wide, .ok ()) ∧
      decodeInto wide (.record (samples .integer) held) = (narrow, .ok ()) ∧
      ThroughFloat i (.ofType (samples .float)) (.ofType (samples .integer))
        [.member "Values", .item 1] wide
        (decodeInto wide (.record (samples .integer) held))) ∧
    ThroughFloat i (.sequence (.optional .float)) (.sequence (.optional .integer)) [.item 1] floats
      (Decode.value (.sequence (.optional .integer)) floats (.sequence []) []) := by
  intro samples held i j items floats wide narrow
  have hround : Binary64.ofInt i.toInt = ⟨0xC340000000000000⟩ := by decide +kernel
  have hexact : (⟨0xC340000000000000⟩ : Binary64).isIntegral = true ∧
      (⟨0xC340000000000000⟩ : Binary64).toInt64 = j := by decide +kernel
  have honce (kind : Kind) : Entries.Once "Values" kind [("Values", kind)] :=
    ⟨[], [], rfl, List.not_mem_nil, List.not_mem_nil⟩
  have hitem : HoldsAt .float (.integer i) (.sequence (.optional .float)) items [.item 1] :=
    .item rfl rfl (.optional (.leaf rfl))
  have hfolded : Text.lowercase "values" = Text.lowercase "Values" := by decide +kernel
  have hfound : lookup (.mapping [("values", items)]) "Values" = some items := by
    simp [lookup, Entries.find?, Entries.resolve?, Entries.foldedKey?, Entries.get?, hfolded]
  have hholds : HoldsAt .float (.integer i) (.ofType (samples .float))
      (.mapping [("values", items)]) [.member "Values", .item 1] :=
    .field (honce _) hfound hitem
  have hempty (leaf : Kind) : (Kind.sequence (.optional leaf)).Fits (.sequence []) :=
    .sequence fun _ hn => absurd hn List.not_mem_nil
  have hconforms (leaf : Kind) : (samples leaf).Conforms held := by
    refine ⟨rfl, fun key n hn => ?_⟩
    cases List.mem_singleton.mp hn
    exact ⟨_, List.mem_singleton.mpr rfl, hempty leaf⟩
  have hvalue (place : Place) :
      Decode.value (.sequence (.optional .float)) items (.sequence []) place =
        (floats, .ok ()) := by
    simp [items, floats, Decode.value, Decode.sequence, Decode.scalarFor, Kind.zero, Node.core,
      Node.isNull, Node.integer, Node.float, hround]
  have hback (place : Place) :
      Decode.value (.sequence (.optional .integer)) floats (.sequence []) place =
        (.sequence [.null, .indirect (.integer j)], .ok ()) := by
    simp [floats, Decode.value, Decode.sequence, Decode.scalarFor, Kind.zero, Node.core,
      Node.isNull, Node.integer, Node.float, hexact]
  have hwide : decodeInto (.mapping [("values", items)]) (.record (samples .float) held) =
      (wide, .ok ()) :=
    decodeInto_single (Option.some_ne_none _) hfound (hvalue _)
  have hnarrow : decodeInto wide (.record (samples .integer) held) = (narrow, .ok ()) :=
    decodeInto_single (Option.some_ne_none _) (lookup_of_get? rfl rfl) (hback _)
  obtain ⟨hslot, hroot⟩ := integer_through_float
  have hnarrows : (Kind.sequence (.optional .float)).Narrows (.sequence (.optional .integer)) :=
    .sequence (.optional .float)
  refine ⟨⟨hholds, hwide, hnarrow, ?_⟩, ?_⟩
  · exact hroot _ _ _ _ _ _ _ _ hholds (.record (.cons hnarrows .nil)) (hconforms _) (hconforms _)
      hwide
  · exact hslot _ _ _ _ _ _ _ _ [] _ hitem hnarrows (hempty _) (hempty _) (hvalue [])

/-- The integer after two to the 53rd lies between two doubles, and another one comes back.  Where a
name is declared twice, what is decoded for the first declaration gives way to what is decoded for
the second one: `X` is not there any more, and no integer comes back for it. -/
theorem integer_lost_through_float :
    let reading : RecordType := ⟨"Reading", [("V", .float)]⟩
    let count : RecordType := ⟨"Count", [("V", .integer)]⟩
    let i : Int64 := 9007199254740993
    let source : Node := .mapping [("V", .integer i)]
    let wide : Node := .record reading [("V", .float ⟨0x4340000000000000⟩)]
    let narrow : Node := .record count [("V", .integer 9007199254740992)]
    let first (leaf : Kind) : RecordType := ⟨"First", [("X", leaf)]⟩
    let second (leaf : Kind) : RecordType := ⟨"Second", [("Y", leaf)]⟩
    let twice (leaf : Kind) : RecordType :=
      ⟨"Twice", [("A", .ofType (first leaf)), ("A", .ofType (second leaf))]⟩
    let both : Node := .mapping [("X", .integer 5), ("Y", .integer 6)]
    let wideY : Node := .record (second .float) [("Y", .float ⟨0x4018000000000000⟩)]
    let narrowY : Node := .record (second .integer) [("Y", .integer 6)]
    (HoldsAt .float (.integer i) (.ofType reading) source [.member "V"] ∧
      (Kind.ofType reading).Narrows (.ofType count) ∧
      decodeInto source reading.zero = (wide, .ok ()) ∧
      decodeInto wide count.zero = (narrow, .ok ()) ∧
      ¬ HoldsAt .integer (.integer i) (.ofType count) narrow [.member "V"]) ∧
    (Kind.ofType (twice .float)).Narrows (.ofType (twice .integer)) ∧
      decodeInto (.mapping [("A", both)]) (twice .float).zero =
        (.record (twice .float) [("A", wideY)], .ok ()) ∧
      decodeInto (.record (twice .float) [("A", wideY)]) (twice .integer).zero =
        (.record (twice .integer) [("A", narrowY)], .ok ()) := by
  intro reading count i source wide narrow first second twice both wideY narrowY
  have hround : Binary64.ofInt i.toInt = ⟨0x4340000000000000⟩ ∧
      Binary64.ofInt 6 = ⟨0x4018000000000000⟩ := by decide +kernel
  have hfolded : Text.lowercase "Y" ≠ Text.lowercase "X" := by decide +kernel
  have hexact : (⟨0x4340000000000000⟩ : Binary64).isIntegral = true ∧
      (⟨0x4340000000000000⟩ : Binary64).toInt64 = 9007199254740992 := by decide +kernel
  have hexact' : (⟨0x4018000000000000⟩ : Binary64).isIntegral = true ∧
      (⟨0x4018000000000000⟩ : Binary64).toInt64 = 6 := by decide +kernel
  have honce (kind : Kind) : Entries.Once "V" kind [("V", kind)] :=
    ⟨[], [], rfl, List.not_mem_nil, List.not_mem_nil⟩
  have hfloat (slot : Node) (place : Place) :
      Decode.value .float (.integer i) slot place = (.float ⟨0x4340000000000000⟩, .ok ()) := by
    simp [Decode.value, Decode.scalarFor, Node.core, Node.isNull, Node.integer, Node.float, hround]
  have hinteger (slot : Node) (place : Place) :
      Decode.value .integer (.float ⟨0x4340000000000000⟩) slot place =
        (.integer 9007199254740992, .ok ()) := by
    simp [Decode.value, Decode.scalarFor, Node.core, Node.isNull, Node.integer, Node.float, hexact]
  have hwide : decodeInto source reading.zero = (wide, .ok ()) :=
    decodeInto_single (Option.some_ne_none _) (lookup_of_get? rfl rfl) (hfloat _ _)
  have hnarrow : decodeInto wide count.zero = (narrow, .ok ()) :=
    decodeInto_single (Option.some_ne_none _) (lookup_of_get? rfl rfl) (hinteger _ _)
  have hstored : HoldsAt .integer (.integer 9007199254740992) (.ofType count) narrow
      [.member "V"] := .field (honce _) (lookup_of_get? rfl rfl) (.leaf rfl)
  refine ⟨⟨?_, .record (.cons .float .nil), hwide, hnarrow, ?_⟩, ?_, ?_, ?_⟩
  · exact .field (honce _) (lookup_of_get? rfl rfl) (.leaf rfl)
  · intro h
    have hsame := h.unique trivial hstored
    exact absurd (Scalar.integer.inj hsame) (by decide)
  · exact .record (.cons (.record (.cons .float .nil)) (.cons (.record (.cons .float .nil)) .nil))
  · simp [twice, first, second, both, wideY, decodeInto, Decode.into, Decode.record,
      Decode.fields, Decode.value, Decode.lookup, Decode.hasMembers, Decode.scalarFor,
      Decode.recordFor, Node.record?, RecordType.zero, Kind.zero, Kind.zeroFields, Kind.ofType,
      Entries.ofList, Entries.putAll, Entries.put, Entries.get?, Entries.find?, Entries.resolve?,
      Node.core, Node.isNull, Node.withCore, Node.integer, Node.float, hround.2]
  · simp [twice, first, second, narrowY, wideY, decodeInto, Decode.into, Decode.record,
      Decode.fields, Decode.value, Decode.lookup, Decode.hasMembers, Decode.scalarFor,
      Decode.recordFor, Node.record?, RecordType.zero, Kind.zero, Kind.zeroFields, Kind.ofType,
      Entries.ofList, Entries.putAll, Entries.put, Entries.get?, Entries.find?, Entries.resolve?,
      Entries.foldedKey?, Node.core, Node.isNull, Node.withCore, Node.integer, Node.float, hfolded,
      hexact']

end Polydoc
