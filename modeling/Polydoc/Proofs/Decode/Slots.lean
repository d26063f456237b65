/-
  Proofs/Decode/Slots.lean --- one slot of a fresh record, from the moment when something is put into
  it until a source has been decoded.

  A path leads to a slot through fields of record types.  On the way down each record hands the
  member that it finds for the field to the next one, and what arrives is decoded into the slot, as
  one of the kind that it is declared with.  Where a member is missing, a null arrives.
-/
import Polydoc.Proofs.Decode.Steps
import Polydoc.Proofs.Kind
import Polydoc.Proofs.Resolver.Contract
import Polydoc.Resolver.Decode

set_option autoImplicit false

namespace Polydoc

/-! ## Slots -/

/-- The elements lead from a value of a kind through fields of record types, found in any letter
case, to a slot that is declared with a kind of its own; the names are those that the fields are
declared with, each once. -/
inductive Kind.Reaches (declared : Kind) : List Element → Kind → List String → Prop where
  | slot : Reaches declared [] declared []
  | self {es : List Element} {kind : Kind} {names : List String}
      (inner : Reaches declared es kind names) : Reaches declared (.self :: es) kind names
  | field {text key name : String} {fields : List (String × Kind)} {es : List Element}
      {kind : Kind} {names : List String} (found : Entries.resolve? text fields = some key)
      (once : Entries.Once key kind fields) (inner : Reaches declared es kind names) :
      Reaches declared (.name text :: es) (.record name fields) (key :: names)

/-- The kind that a slot is decoded as: the whole document is declared nowhere, and takes anything. -/
def Kind.ofSlot (names : List String) (declared : Kind) : Kind :=
  match names with
  | [] => .any
  | _ :: _ => declared

/-- A field that is declared once has one zero value. -/
theorem Entries.Once.zeroFields {key : String} {kind : Kind} {fields : List (String × Kind)}
    (h : Entries.Once key kind fields) : Entries.Once key kind.zero (Kind.zeroFields fields) := by
  obtain ⟨before, after, rfl, hbefore, hafter⟩ := h
  refine ⟨Kind.zeroFields before, Kind.zeroFields after, ?_, ?_, ?_⟩
  · induction before with
    | nil => rfl
    | cons e rest ih =>
      have hrest : key ∉ Entries.keys rest := fun hm => hbefore (List.mem_cons_of_mem _ hm)
      exact congrArg (_ :: ·) (ih hrest)
  · rw [Kind.keys_zeroFields]
    exact hbefore
  · rw [Kind.keys_zeroFields]
    exact hafter

namespace Node

/-- A slot that is declared with a kind stands in a document at the end of the names: on the way the
document is a record of the declared type. -/
inductive StandsIn (slot : Node) (declared : Kind) : List String → Kind → Node → Prop where
  | slot : StandsIn slot declared [] declared slot
  | field {key name : String} {fields : List (String × Kind)} {names : List String} {kind : Kind}
      {held : List (String × Node)} {n : Node} (once : Entries.Once key kind fields)
      (complete : Entries.keys held = Entries.keys (Entries.ofList fields))
      (stored : Entries.get? key held = some n) (inner : StandsIn slot declared names kind n) :
      StandsIn slot declared (key :: names) (.record name fields) (.record ⟨name, fields⟩ held)

/-- What the decoder takes from a source for the field at the end of the names; nothing if it does
not find one of them. -/
def handed (source : Node) : List String → Node
  | [] => source
  | name :: rest =>
    match Decode.lookup source.core name with
    | some member => member.handed rest
    | none => .null

section Slot

variable {slot n : Node} {es : List Element} {declared kind : Kind} {names : List String}

/-- A path finds the slot. -/
theorem StandsIn.walk_eq (h : slot.StandsIn declared names kind n)
    (hreaches : Kind.Reaches declared es kind names) :
    ∀ (index : Nat), n.walk index es = .ok slot := by
  induction hreaches generalizing n with
  | slot =>
    intro index
    cases h
    rfl
  | self _ ih => exact fun index => ih h (index + 1)
  | @field text key name fields es kind names found once inner ih =>
    intro index
    cases h with
    | @field _ _ _ _ first held child once' complete stored holds =>
      have hkind : first = kind := once'.unique once
      subst hkind
      have hk : (Node.record ⟨name, fields⟩ held).key? text = some key := by
        rw [key?_record, Entries.resolve?_congr complete, Entries.resolve?_ofList, found]
      rw [walk_name (enter_of_key? hk stored)]
      exact ih holds (index + 1)

/-- Any value can be put into the slot of a fresh record. -/
theorem zero_standsIn (value : Node) (hreaches : Kind.Reaches declared es kind names) :
    ∃ n, (∀ index, kind.zero.overwrite value index es = .ok n) ∧
      value.StandsIn declared names kind n := by
  induction hreaches with
  | slot => exact ⟨value, fun _ => rfl, .slot⟩
  | self _ ih =>
    obtain ⟨n, hn, holds⟩ := ih
    exact ⟨n, fun index => hn (index + 1), holds⟩
  | @field text key name fields es kind names found once inner ih =>
    obtain ⟨n, hn, holds⟩ := ih
    let zeros := Entries.ofList (Kind.zeroFields fields)
    have hstored : Entries.get? key zeros = some kind.zero := once.zeroFields.get?_ofList
    have hkeys : Entries.keys zeros = Entries.keys (Entries.ofList fields) :=
      Entries.keys_ofList_congr (Kind.keys_zeroFields fields)
    have hk : (Node.record ⟨name, fields⟩ zeros).key? text = some key := by
      rw [key?_record, Entries.resolve?_congr hkeys, Entries.resolve?_ofList, found]
    refine ⟨.record ⟨name, fields⟩ (Entries.put key n zeros), fun index => ?_, ?_⟩
    · rw [Kind.zero, overwrite_name hk (enter_of_key? hk hstored), hn]
      rfl
    · refine .field once ?_ ?_ holds
      · rw [Entries.keys_put_of_mem (Entries.mem_keys_of_get? hstored), hkeys]
      · rw [Entries.get?_put, if_pos rfl]

end Slot

end Node

/-! ## Decoding on the way down -/

namespace Decode

section Fields

variable {source : Node} {type : RecordType} {held decoded : List (String × Node)} {place : Place}

theorem fields_append_ok {xs ys : List (String × Kind)}
    (h : fields source type (xs ++ ys) held place = (decoded, .ok ())) :
    ∃ middle, fields source type xs held place = (middle, .ok ()) ∧
      fields source type ys middle place = (decoded, .ok ()) := by
  rw [fields_append] at h
  cases hx : fields source type xs held place with
  | mk middle result =>
    rw [hx] at h
    cases result with
    | error e => cases h
    | ok _ => exact ⟨middle, rfl, h⟩

/-- A field that is declared once is decoded from the member found for it, or is left alone. -/
theorem fields_once {key : String} {kind : Kind} {declared : List (String × Kind)}
    (once : Entries.Once key kind declared)
    (h : fields source type declared held place = (decoded, .ok ())) :
    (lookup source key = none ∧ Entries.get? key decoded = Entries.get? key held) ∨
      ∃ member m, lookup source key = some member ∧
        value kind member (slotOf type key held) (place ++ [.member key]) = (m, .ok ()) ∧
        Entries.get? key decoded = some m := by
  obtain ⟨before, after, rfl, hbefore, hafter⟩ := once
  obtain ⟨middle, hfirst, hrest⟩ := fields_append_ok h
  have hothers {todo : List (String × Kind)} (htodo : key ∉ Entries.keys todo)
      {inner left : List (String × Node)}
      (hf : fields source type todo inner place = (left, .ok ())) :
      Entries.get? key left = Entries.get? key inner := by
    have hget : Entries.get? key (fields source type todo inner place).1 =
        Entries.get? key inner := get?_fields htodo
    rw [hf] at hget
    exact hget
  have hmiddle : Entries.get? key middle = Entries.get? key held := hothers hbefore hfirst
  cases hl : lookup source key with
  | none =>
    rw [fields_cons_none hl] at hrest
    exact .inl ⟨rfl, (hothers hafter hrest).trans hmiddle⟩
  | some member =>
    have hslot : slotOf type key middle = slotOf type key held := by
      rw [slotOf, slotOf, hmiddle]
    rw [fields_cons_some hl, hslot] at hrest
    cases hv : value kind member (slotOf type key held) (place ++ [.member key]) with
    | mk m result =>
      rw [hv] at hrest
      cases result with
      | error e => cases hrest
      | ok _ =>
        refine .inr ⟨member, m, rfl, hv, (hothers hafter hrest).trans ?_⟩
        rw [Entries.get?_put, if_pos rfl]

end Fields

theorem lookup_of_isNull {source : Node} (h : source.isNull = true) (name : String) :
    lookup source.core name = none := by
  unfold Node.isNull at h
  cases hn : source.core with
  | null => rfl
  | _ =>
    rw [hn] at h
    cases h

/-- What is decoded into the slot is what is handed to it, wherever the document stands. -/
theorem value_standsIn {slot n : Node} {declared kind : Kind} {names : List String}
    (h : slot.StandsIn declared names kind n) :
    ∀ {source decoded : Node} {place : Place}, value kind source n place = (decoded, .ok ()) →
      ∃ (filled : Node) (inner : Place), filled.StandsIn declared names kind decoded ∧
        value declared (source.handed names) slot inner = (filled, .ok ()) := by
  induction h with
  | slot =>
    intro source decoded place hv
    exact ⟨decoded, place, .slot, hv⟩
  | @field key name fields names kind held n once complete stored inner ih =>
    intro source decoded place hv
    -- without a member for the field, the slot stays as it is
    have hnothing (hl : lookup source.core key = none) :
        value declared (source.handed (key :: names)) slot place = (slot, .ok ()) := by
      rw [Node.handed, hl]
      exact value_null rfl declared
    rw [value_record source name fields ⟨name, fields⟩ rfl, into_record] at hv
    split at hv
    · rename_i hnull
      cases hv
      exact ⟨slot, place, .field once complete stored inner,
        hnothing (lookup_of_isNull hnull key)⟩
    · unfold record at hv
      split at hv
      · cases hf : Decode.fields source.core ⟨name, fields⟩ fields held place with
        | mk left result =>
          rw [hf] at hv
          cases hv
          have hkeys : Entries.keys left = Entries.keys (Entries.ofList fields) := by
            have hsame : Entries.keys
                (Decode.fields source.core ⟨name, fields⟩ fields held place).1 =
                Entries.keys held := by
              refine keys_fields fun e he => ?_
              rw [complete, Entries.mem_keys_ofList]
              exact List.mem_map_of_mem he
            rw [← complete, ← hsame, hf]
          rcases fields_once once hf with ⟨hl, hget⟩ | ⟨member, m, hl, hm, hget⟩
          · exact ⟨slot, place, .field once hkeys (hget.trans stored) inner, hnothing hl⟩
          · have hslot : slotOf ⟨name, fields⟩ key held = n := by rw [slotOf, stored]
            rw [hslot] at hm
            obtain ⟨filled, deeper, hfilled, hvalue⟩ := ih hm
            refine ⟨filled, deeper, .field once hkeys hget hfilled, ?_⟩
            rw [Node.handed, hl]
            exact hvalue
      · cases hv

end Decode

/-! ## Resolving, then decoding -/

namespace Resolver

variable {r : Resolver} {source decoded : Node} {t : RecordType} {declared : Kind}
  {names : List String}

/-- A type is assigned only if one is selected, and then a fresh record of it is in the slot. -/
theorem chosen_of_assign {target assigned : Node}
    (h : r.assign source target = (assigned, .ok true)) :
    ∃ chosen, Selects source r.strategy chosen ∧
      target.setAt? r.target chosen.zero = .ok assigned := by
  rcases verdict source r.strategy with ⟨type, hs⟩ | ⟨activity, cause, hf⟩ | ⟨reason, hu⟩
  · rcases assign_of_selects hs target with ⟨cause, _, ha⟩ | ⟨written, hset, _, ha⟩
    · rw [ha] at h
      cases h
    · rw [ha] at h
      cases h
      exact ⟨type, hs, hset⟩
  · rw [assign_of_fails hf] at h
    cases h
  · rw [assign_of_undecided hu] at h
    cases hp : r.policy <;> simp [hp] at h

theorem assigned_of_decode {target : Node} {applied : Bool}
    (h : r.decode source target = (decoded, .ok applied)) :
    ∃ assigned, r.assign source target = (assigned, .ok applied) ∧
      decodeInto source assigned = (decoded, .ok ()) := by
  unfold decode at h
  cases ha : r.assign source target with
  | mk assigned result =>
    rw [ha] at h
    cases result with
    | error e => cases h
    | ok applied' =>
      cases hd : decodeInto source assigned with
      | mk written outcome =>
        dsimp only at h
        rw [hd] at h
        cases outcome with
        | error e => cases h
        | ok _ =>
          cases h
          exact ⟨assigned, rfl, hd⟩

theorem decode_of_assigned {target assigned : Node} {chosen : RecordType}
    (hchoose : r.choose source = .ok (.ok chosen))
    (hassigned : target.assignTypeAt? r.target chosen = .ok assigned)
    (hinto : decodeInto source assigned = (decoded, .ok ())) :
    r.decode source target = (decoded, .ok true) := by
  have hassign : r.assign source target = (assigned, .ok true) := by
    simp only [assign, hchoose, hassigned]
  rw [decode_of_assign hassign, hinto]
  rfl

/-- The slot holds what is decoded from the value handed to it into a fresh record. -/
theorem decode_slot (hreaches : Kind.Reaches declared r.target.elements (.ofType t) names)
    (h : r.decode source t.zero = (decoded, .ok true)) :
    ∃ chosen slot place, Selects source r.strategy chosen ∧ decoded.at? r.target = .ok slot ∧
      Decode.value (.ofSlot names declared) (source.handed names) chosen.zero place =
        (slot, .ok ()) := by
  obtain ⟨assigned, hassign, hdecode⟩ := assigned_of_decode h
  obtain ⟨chosen, hselects, hset⟩ := chosen_of_assign hassign
  obtain ⟨fresh, hfresh, hslot⟩ := Node.zero_standsIn chosen.zero hreaches
  have hassigned : fresh = assigned := by
    have hover := Node.setAt?_eq_ok_iff.mp hset
    rw [RecordType.zero, hfresh 0] at hover
    cases hover
    rfl
  subst hassigned
  cases names with
  | nil =>
    have hroot : Decode.value .any source chosen.zero [] = (decoded, .ok ()) := by
      cases hslot
      rw [← hdecode]
      exact (Decode.value_any_record source _ _ []).trans (Decode.decodeInto_record source _ _).symm
    have hwalk : decoded.walk 0 r.target.elements = .ok decoded := by
      cases hslot
      exact Node.StandsIn.slot.walk_eq hreaches 0
    exact ⟨chosen, decoded, [], hselects, Node.at?_eq_ok_iff.mpr hwalk, hroot⟩
  | cons name rest =>
    have hvalue : Decode.value (.ofType t) source fresh [] = (decoded, .ok ()) := by
      cases hslot with
      | field _ _ _ _ =>
        rw [← hdecode]
        exact (decodeInto_eq_value source t _).symm
    obtain ⟨slot, place, hfilled, hinner⟩ := Decode.value_standsIn hslot hvalue
    exact ⟨chosen, slot, place, hselects, Node.at?_eq_ok_iff.mpr (hfilled.walk_eq hreaches 0),
      hinner⟩

end Resolver

end Polydoc
