/-
  Proofs/Decode/Integers.lean --- floats become integers exactly or not at all.

  What a source holds for a field of integers, alone, in sequences or below optionals, is said by
  recursion on the kind, from the exact value of each float.  The decoder writes just that, and
  where there is none it reports an error and writes nothing.
-/
import Polydoc.Proofs.Decode.Committing

set_option autoImplicit false

namespace Polydoc

/-- The kinds of integers, of sequences of such and of optional ones. -/
def IntegerKind : Kind → Prop
  | .integer => True
  | .sequence item => IntegerKind item
  | .optional inner => IntegerKind inner
  | _ => False

/-- The item that a source gives: a fresh one for a null, else one that `Holds` relates to it. -/
def ItemHolds (Holds : Node → Node → Prop) (zero source m : Node) : Prop :=
  if source.isNull then m = zero else Holds source m

/-- `m` has the very integers that stand in the source: an integer itself, and for a float the
integer that is its value. -/
def HoldsIntegers : Kind → Node → Node → Prop
  | .integer, source, m =>
    (∃ i, source.core = .scalar (.integer i) ∧ m = .integer i) ∨
      ∃ x n i, source.core = .scalar (.float x) ∧ x.isFinite = true ∧ x.value = (n : ℤ) ∧
        -2 ^ 63 ≤ n ∧ n < 2 ^ 63 ∧ i.toInt = n ∧ m = .integer i
  | .sequence item, source, m =>
    ∃ items ms, source.core = .sequence items ∧ m = .sequence ms ∧
      List.Forall₂ (ItemHolds (HoldsIntegers item) item.zero) items ms
  | .optional inner, source, m => ∃ n, HoldsIntegers inner source n ∧ m = .indirect n
  | _, _, _ => False

namespace Decode

/-- Decoding has written a value that is `wanted`, or there is no such value and it has written
nothing and failed. -/
def WritesOrFails (wanted : Node → Prop) (slot : Node) (outcome : Outcome Node) : Prop :=
  (∃ m, wanted m ∧ outcome = (m, .ok ())) ∨ (¬ ∃ m, wanted m) ∧ ∃ e, outcome = (slot, .error e)

/-! ## One slot -/

section Slot

variable {source slot : Node} {place : Place}

/-- A single integer: the test lets through the floats that are integers, and the cast leaves them
as they are. -/
theorem holdsIntegers_integer (source m : Node) :
    HoldsIntegers .integer source m ↔
      ∃ s, scalarFor .integer source.core = some s ∧ m = .scalar s := by
  constructor
  · rintro (⟨i, hi, rfl⟩ | ⟨x, n, i, hx, hfinite, hvalue, hlow, hhigh, hi, rfl⟩)
    · exact ⟨_, by rw [hi]; rfl, rfl⟩
    · have hint : x.toInt? = some n := Binary64.toInt?_eq_some_iff_value.mpr ⟨hfinite, hvalue⟩
      refine ⟨.integer i, ?_, rfl⟩
      rw [hx, scalarFor_integer_float, hint, Option.bind_some, if_pos ⟨hlow, hhigh⟩, ← hi,
        Int64.ofInt_toInt]
      rfl
  · rintro ⟨s, hs, rfl⟩
    cases hcore : source.core with
    | scalar t =>
      rw [hcore] at hs
      cases t with
      | integer i =>
        cases hs
        exact .inl ⟨i, hcore, rfl⟩
      | float x =>
        rw [scalarFor_integer_float] at hs
        obtain ⟨i, hi, rfl⟩ := Option.map_eq_some_iff.mp hs
        obtain ⟨n, hn, hrange⟩ := Option.bind_eq_some_iff.mp hi
        split at hrange
        · rename_i h
          cases hrange
          obtain ⟨hfinite, hvalue⟩ := Binary64.toInt?_eq_some_iff_value.mp hn
          exact .inr ⟨x, n, _, hcore, hfinite, hvalue, h.1, h.2,
            Int64.toInt_ofInt_of_le (by omega) (by omega), rfl⟩
        · cases hrange
      | bool b => cases hs
      | string s => cases hs
    | _ =>
      rw [hcore] at hs
      cases hs

/-- The items of a sequence, if each of them is written or fails. -/
theorem sequence_writes_or_fails {item : Kind} {Holds : Node → Node → Prop}
    (hitem : ∀ {source slot : Node} {place : Place}, source.isNull = false →
      WritesOrFails (Holds source) slot (value item source slot place))
    (items : List Node) (place : Place) (index : Nat) :
    (∃ ms, List.Forall₂ (ItemHolds Holds item.zero) items ms ∧
        sequence item items place index = .ok ms) ∨
      (¬ ∃ ms, List.Forall₂ (ItemHolds Holds item.zero) items ms) ∧
        ∃ e, sequence item items place index = .error e := by
  induction items generalizing index with
  | nil => exact .inl ⟨[], .nil, sequence_nil item place index⟩
  | cons source rest ih =>
    have hfirst : WritesOrFails (ItemHolds Holds item.zero source) item.zero
        (value item source item.zero (place ++ [.item index])) := by
      unfold ItemHolds
      cases hnull : source.isNull with
      | true => exact .inl ⟨item.zero, rfl, value_null hnull item⟩
      | false => exact hitem hnull
    rw [sequence_cons]
    rcases hfirst with ⟨m, hm, hvalue⟩ | ⟨hnone, e, hvalue⟩
    · rw [hvalue]
      rcases ih (index + 1) with ⟨ms, hms, hrest⟩ | ⟨hnone, e, hrest⟩
      · exact .inl ⟨m :: ms, .cons hm hms, by rw [hrest]⟩
      · refine .inr ⟨?_, e, by rw [hrest]⟩
        rintro ⟨_, hms⟩
        cases hms with
        | cons _ hms => exact hnone ⟨_, hms⟩
    · rw [hvalue]
      refine .inr ⟨?_, e, rfl⟩
      rintro ⟨_, hms⟩
      cases hms with
      | cons hm _ => exact hnone ⟨_, hm⟩

/-- Decoding into a slot for integers writes them exactly, or fails and writes nothing. -/
theorem value_writes_or_fails {kind : Kind} (hkind : IntegerKind kind)
    (hnull : source.isNull = false) :
    WritesOrFails (HoldsIntegers kind source) slot (value kind source slot place) := by
  induction kind using IntegerKind.induct generalizing source slot place with
  | case1 =>
    have hholds := holdsIntegers_integer source
    have hinteger : ScalarKind .integer := trivial
    rw [value_scalar hinteger hnull]
    cases hs : scalarFor .integer source.core with
    | some s => exact .inl ⟨.scalar s, (hholds _).mpr ⟨s, hs, rfl⟩, rfl⟩
    | none =>
      refine .inr ⟨?_, _, rfl⟩
      rintro ⟨m, hm⟩
      obtain ⟨s, hs', -⟩ := (hholds m).mp hm
      rw [hs] at hs'
      cases hs'
  | case2 item ih =>
    by_cases hsequence : ∃ items, source.core = .sequence items
    · obtain ⟨items, hitems⟩ := hsequence
      rw [value_sequence hitems]
      rcases sequence_writes_or_fails (ih hkind) items place 0 with
        ⟨ms, hms, hrun⟩ | ⟨hnone, e, hrun⟩
      · rw [hrun]
        exact .inl ⟨.sequence ms, ⟨items, ms, hitems, rfl, hms⟩, rfl⟩
      · rw [hrun]
        refine .inr ⟨?_, e, rfl⟩
        rintro ⟨_, items', ms, hitems', -, hms⟩
        rw [hitems] at hitems'
        cases hitems'
        exact hnone ⟨ms, hms⟩
    · have hother (items : List Node) : source.core ≠ .sequence items :=
        fun hitems => hsequence ⟨items, hitems⟩
      rw [value_sequence_mismatch hnull hother]
      refine .inr ⟨?_, _, rfl⟩
      rintro ⟨_, items, _, hitems, -⟩
      exact hother items hitems
  | case3 inner ih =>
    rw [value_optional hnull]
    have hinner : WritesOrFails (HoldsIntegers inner source) inner.zero
        (value inner source inner.zero place) := ih hkind hnull
    rcases hinner with ⟨m, hm, hvalue⟩ | ⟨hnone, e, hvalue⟩
    · rw [hvalue]
      exact .inl ⟨.indirect m, ⟨m, hm, rfl⟩, rfl⟩
    · rw [hvalue]
      refine .inr ⟨?_, e, rfl⟩
      rintro ⟨_, m, hm, -⟩
      exact hnone ⟨m, hm⟩
  | case4 kind hinteger hitems hoptional =>
    cases kind with
    | integer => exact absurd rfl hinteger
    | sequence item => exact absurd rfl (hitems item)
    | optional inner => exact absurd rfl (hoptional inner)
    | _ => exact hkind.elim

end Slot

/-! ## A field of a record -/

section Fields

variable {source : Node} {type : RecordType} {held : List (String × Node)} {place : Place}

/-- Fields for which the source has nothing, or a null, change nothing. -/
theorem fields_of_silent {todo : List (String × Kind)}
    (silent : ∀ f ∈ todo, ∀ member, lookup source f.1 = some member → member.isNull = true)
    (hkeys : ∀ f ∈ todo, f.1 ∈ Entries.keys held) :
    fields source type todo held place = (held, .ok ()) := by
  refine fields_fixed fun f hf member hl => ?_
  obtain ⟨n, hn⟩ := Entries.exists_get?_of_mem (hkeys f hf)
  exact ⟨n, hn, value_null (silent f hf member hl) f.2⟩

/-- Where the source has something for one field only, decoding a record is decoding that field. -/
theorem fields_of_single (hd : Entries.Distinct type.fields)
    (hkeys : ∀ f ∈ type.fields, f.1 ∈ Entries.keys held) {name : String} {kind : Kind}
    (hfield : (name, kind) ∈ type.fields) {member : Node} (hl : lookup source name = some member)
    (silent : ∀ f ∈ type.fields, f.1 ≠ name →
      ∀ member, lookup source f.1 = some member → member.isNull = true) :
    fields source type type.fields held place =
      (Entries.put name
          (value kind member (slotOf type name held) (place ++ [.member name])).1 held,
        (value kind member (slotOf type name held) (place ++ [.member name])).2) := by
  obtain ⟨before, after, hsplit, hbefore, hafter⟩ :=
    Entries.once_of_get? hd (Entries.get?_of_mem hd hfield)
  rw [hsplit] at hkeys silent
  have hput (m : Node) : Entries.keys (Entries.put name m held) = Entries.keys held :=
    Entries.keys_put_of_mem (hkeys (name, kind) (by simp)) m
  have hothers {f : String × Kind} {todo : List (String × Kind)} (hf : f ∈ todo)
      (htodo : name ∉ Entries.keys todo) : f.1 ≠ name :=
    fun heq => htodo (heq ▸ List.mem_map_of_mem hf)
  have hfirst : fields source type before held place = (held, .ok ()) :=
    fields_of_silent
      (fun f hf => silent f (List.mem_append_left _ hf) (hothers hf hbefore))
      fun f hf => hkeys f (List.mem_append_left _ hf)
  have hrest (m : Node) : fields source type after (Entries.put name m held) place =
      (Entries.put name m held, .ok ()) :=
    have hmem {f : String × Kind} (hf : f ∈ after) : f ∈ before ++ (name, kind) :: after :=
      List.mem_append_right _ (List.mem_cons_of_mem _ hf)
    fields_of_silent (fun f hf => silent f (hmem hf) (hothers hf hafter))
      fun f hf => (hput m).symm ▸ hkeys f (hmem hf)
  rw [hsplit, fields_append, hfirst]
  dsimp only
  rw [fields_cons_some hl]
  cases value kind member (slotOf type name held) (place ++ [.member name]) with
  | mk m result =>
    cases result with
    | error e => rfl
    | ok _ => exact hrest m

end Fields

end Decode

/-- What becomes of a field of a record for which the source has `member`, and what of the record
where the source has nothing else for it. -/
structure TakesIntegers (source target : Node) (type : RecordType) (held : List (String × Node))
    (name : String) (kind : Kind) (member : Node) : Prop where
  field : (decodeInto source target).2 = .ok () → ∃ m left, HoldsIntegers kind member m ∧
    (decodeInto source target).1 = target.withCore (.record type left) ∧
    Entries.get? name left = some m
  alone : (∀ f ∈ type.fields, f.1 ≠ name → Silent source f.1) →
    (∃ m, HoldsIntegers kind member m ∧ decodeInto source target =
        (target.withCore (.record type (Entries.put name m held)), .ok ())) ∨
      (¬ ∃ m, HoldsIntegers kind member m) ∧ ∃ e, decodeInto source target = (target, .error e)

theorem takesIntegers {source target member : Node} {members : List (String × Node)}
    {type : RecordType} {held : List (String × Node)} {name : String} {kind : Kind}
    (hcore : target.core = .record type held) (hd : Entries.Distinct type.fields)
    (hkeys : ∀ f ∈ type.fields, f.1 ∈ Entries.keys held)
    (hfield : (name, kind) ∈ type.fields) (hkind : IntegerKind kind)
    (hmembers : source.members? = some members) (hmember : fieldMember? members name = some member)
    (hnull : member.isNull = false) :
    TakesIntegers source target type held name kind member := by
  have hrun := decodeInto_fields (hmembers ▸ Option.some_ne_none members) hcore
  have hl : Decode.lookup source.core name = some member :=
    (lookup_core hmembers name).trans hmember
  obtain ⟨n, hn⟩ := Entries.exists_get?_of_mem (hkeys _ hfield)
  have hslot : Decode.slotOf type name held = n := by rw [Decode.slotOf, hn]
  have hvalue : Decode.WritesOrFails (HoldsIntegers kind member) n
      (Decode.value kind member n [.member name]) := Decode.value_writes_or_fails hkind hnull
  constructor
  · rw [hrun]
    intro hok
    rcases Decode.fields_once (Entries.once_of_get? hd (Entries.get?_of_mem hd hfield))
      (Prod.ext rfl hok) with ⟨hnone, -⟩ | ⟨member', m, hl', hm, hget⟩
    · rw [hl] at hnone
      cases hnone
    · rw [hl] at hl'
      cases hl'
      rw [hslot, List.nil_append] at hm
      rcases hvalue with ⟨m', hholds, hm'⟩ | ⟨-, e, hm'⟩
      · rw [hm] at hm'
        cases hm'
        exact ⟨m, _, hholds, rfl, hget⟩
      · rw [hm] at hm'
        cases hm'
  · rw [hrun]
    intro silent
    have hothers (f : String × Kind) (hf : f ∈ type.fields) (hne : f.1 ≠ name) (other : Node)
        (hlookup : Decode.lookup source.core f.1 = some other) : other.isNull = true :=
      silent f hf hne members other hmembers ((lookup_core hmembers f.1).symm.trans hlookup)
    rw [Decode.fields_of_single hd hkeys hfield hl hothers, hslot, List.nil_append]
    rcases hvalue with ⟨m, hholds, hm⟩ | ⟨hnone, e, hm⟩
    · rw [hm]
      exact .inl ⟨m, hholds, rfl⟩
    · rw [hm, Entries.put_of_get? hn, ← hcore, Node.withCore_core]
      exact .inr ⟨hnone, e, rfl⟩

/-- **Floats become integers only exactly.**  Into a slot that is declared for an integer, for
sequences of such or for optional ones, decoding writes the very integers that stand in the source:
each float is finite, its value is an integer within the range of 64 bits, and it is that integer
that is written.  Where there is a float for which this does not hold, decoding fails and writes
nothing.  So a record gets these integers for its field if decoding into it succeeds; and where the
source has nothing for the other fields, it does succeed just if there are such integers. -/
theorem integers_exact :
    (∀ kind source slot place, IntegerKind kind → source.isNull = false →
      Decode.WritesOrFails (HoldsIntegers kind source) slot
        (Decode.value kind source slot place)) ∧
    ∀ source target members type held name kind member,
      target.core = .record type held → Entries.Distinct type.fields →
      (∀ f ∈ type.fields, f.1 ∈ Entries.keys held) → (name, kind) ∈ type.fields →
      IntegerKind kind → source.members? = some members →
      fieldMember? members name = some member → member.isNull = false →
      TakesIntegers source target type held name kind member :=
  ⟨fun _ _ _ _ hkind hnull => Decode.value_writes_or_fails hkind hnull,
    fun _ _ _ _ _ _ _ _ hcore hd hkeys hfield hkind hmembers hmember hnull =>
      takesIntegers hcore hd hkeys hfield hkind hmembers hmember hnull⟩

/-- Negative zero and the least integer are taken over; two to the power of 63 is one too large. -/
theorem integers_exact_tally :
    let tally : RecordType := ⟨"Tally", [("counts", .sequence .integer)]⟩
    let held : List (String × Node) := [("counts", .sequence [])]
    let within : Node := .sequence [.float ⟨0x8000000000000000⟩, .float ⟨0xC3E0000000000000⟩]
    let beyond : Node := .sequence [.float ⟨0x43E0000000000000⟩]
    let counts : Node := .sequence [.integer 0, .integer Int64.minValue]
    (decodeInto (.mapping [("counts", within)]) (.record tally held) =
        (.record tally [("counts", counts)], .ok ()) ∧
      HoldsIntegers (.sequence .integer) within counts ∧
      Decode.WritesOrFails (HoldsIntegers (.sequence .integer) within) .null
        (Decode.value (.sequence .integer) within .null [])) ∧
    (∃ e, decodeInto (.mapping [("counts", beyond)]) (.record tally held) =
        (.record tally held, .error e)) ∧
      ¬ ∃ m, HoldsIntegers (.sequence .integer) beyond m := by
  intro tally held within beyond counts
  have hd : Entries.Distinct tally.fields := by simp [tally, Entries.Distinct, Entries.keys]
  have hkeys : ∀ f ∈ tally.fields, f.1 ∈ Entries.keys held := by
    simp [tally, held, Entries.keys]
  have hfield : ("counts", .sequence .integer) ∈ tally.fields := List.mem_singleton.mpr rfl
  have hmember (s : Node) : fieldMember? [("counts", s)] "counts" = some s := rfl
  have silent (s : Node) : ∀ f ∈ tally.fields, f.1 ≠ "counts" →
      Silent (.mapping [("counts", s)]) f.1 := by
    simp [tally]
  have hcore : (Node.record tally held).core = .record tally held := rfl
  have hmembers (s : Node) : (Node.mapping [("counts", s)]).members? = some [("counts", s)] := rfl
  obtain ⟨hslot, hrecord⟩ := integers_exact
  have hwithin := (hrecord _ _ _ _ _ _ _ _ hcore hd hkeys hfield trivial (hmembers within)
    (hmember within) rfl).alone (silent within)
  have hbeyond := (hrecord _ _ _ _ _ _ _ _ hcore hd hkeys hfield trivial (hmembers beyond)
    (hmember beyond) rfl).alone (silent beyond)
  have hzero : (⟨0x8000000000000000⟩ : Binary64).isIntegral = true ∧
      (⟨0x8000000000000000⟩ : Binary64).toInt64 = 0 := by decide +kernel
  have hleast : (⟨0xC3E0000000000000⟩ : Binary64).isIntegral = true ∧
      (⟨0xC3E0000000000000⟩ : Binary64).toInt64 = Int64.minValue := by decide +kernel
  have hlarge : (⟨0x43E0000000000000⟩ : Binary64).isIntegral = false := by decide +kernel
  have hcounts : decodeInto (.mapping [("counts", within)]) (.record tally held) =
      (.record tally [("counts", counts)], .ok ()) := by
    simp [within, counts, tally, held, decodeInto, Decode.into, Decode.record, Decode.fields,
      Decode.value, Decode.sequence, Decode.lookup, Decode.hasMembers, Decode.scalarFor,
      Kind.zero, Entries.find?, Entries.resolve?, Entries.get?, Entries.put, Node.core,
      Node.withCore, Node.isNull, Node.float, Node.integer, hzero, hleast]
  have herror : (decodeInto (.mapping [("counts", beyond)]) (.record tally held)).2 ≠ .ok () := by
    simp [beyond, tally, held, decodeInto, Decode.into, Decode.record, Decode.fields,
      Decode.value, Decode.sequence, Decode.lookup, Decode.hasMembers, Decode.scalarFor,
      Kind.zero, Entries.find?, Entries.resolve?, Entries.get?, Entries.put, Node.core,
      Node.isNull, Node.float, hlarge]
  constructor
  · rcases hwithin with ⟨m, hholds, hrun⟩ | ⟨-, e, hrun⟩
    · have hm : counts = m := by
        rw [hcounts] at hrun
        simpa [held, Entries.put, Node.withCore] using hrun
      exact ⟨hcounts, hm ▸ hholds, hslot _ _ _ _ trivial rfl⟩
    · rw [hcounts, Prod.mk.injEq] at hrun
      cases hrun.2
  · rcases hbeyond with ⟨m, -, hrun⟩ | ⟨hnone, hrun⟩
    · exact absurd (congrArg Prod.snd hrun) herror
    · exact ⟨hrun, hnone⟩

end Polydoc
