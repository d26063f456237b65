/-
  Proofs/Decode/Committing.lean --- what a run of the decoder has written when it ends.

  A record is decoded one field after another, in the order of its type, and what a field gets
  depends on the source and on its own value alone.  So a run that fails has done with the fields
  before one of them what it would have done with each alone, has left those behind it as they were,
  and has stopped inside that one.
-/
import Polydoc.Proofs.Decode.Denotation
import Polydoc.Proofs.Decode.Idempotence

set_option autoImplicit false

namespace Polydoc

/-- The source has nothing for a field of that name, or a null. -/
def Silent (source : Node) (name : String) : Prop :=
  ∀ members member, source.members? = some members → fieldMember? members name = some member →
    member.isNull = true

/-- Decoding the source into a record of the field `f` alone makes `m` of its value `n`, and ends
with `result`. -/
def DecodesAlone (source : Node) (name : String) (f : String × Kind) (n m : Node)
    (result : Except Decode.Error Unit) : Prop :=
  decodeInto source (.record ⟨name, [f]⟩ [(f.1, n)]) = (.record ⟨name, [f]⟩ [(f.1, m)], result)

/-- A field holds what decoding it alone gives, and that succeeds. -/
def Decoded (source : Node) (type : RecordType) (held left : List (String × Node))
    (f : String × Kind) : Prop :=
  ∀ n, Entries.get? f.1 held = some n →
    ∃ m, DecodesAlone source type.name f n m (.ok ()) ∧ Entries.get? f.1 left = some m

namespace Decode

/-! ## One field after another -/

section Fields

variable {source : Node} {type : RecordType} {held left : List (String × Node)} {place : Place}

/-- A run that fails stops inside one field: those before it have been decoded. -/
theorem fields_eq_error {todo : List (String × Kind)} {e : Error}
    (h : fields source type todo held place = (left, .error e)) :
    ∃ before f later middle member m, todo = before ++ f :: later ∧
      fields source type before held place = (middle, .ok ()) ∧
      lookup source f.1 = some member ∧
      value f.2 member (slotOf type f.1 middle) (place ++ [.member f.1]) = (m, .error e) ∧
      left = Entries.put f.1 m middle := by
  induction todo generalizing held with
  | nil =>
    rw [fields_nil] at h
    cases h
  | cons first rest ih =>
    obtain ⟨name, kind⟩ := first
    cases hl : lookup source name with
    | none =>
      rw [fields_cons_none hl] at h
      obtain ⟨before, f, later, middle, member, m, rfl, hbefore, hstop⟩ := ih h
      refine ⟨(name, kind) :: before, f, later, middle, member, m, rfl, ?_, hstop⟩
      rw [fields_cons_none hl, hbefore]
    | some first =>
      rw [fields_cons_some hl] at h
      cases hv : value kind first (slotOf type name held) (place ++ [.member name]) with
      | mk decoded result =>
        rw [hv] at h
        cases result with
        | error e' =>
          cases h
          exact ⟨[], (name, kind), rest, held, first, decoded, rfl, fields_nil, hl, hv, rfl⟩
        | ok _ =>
          obtain ⟨before, f, later, middle, member, m, rfl, hbefore, hstop⟩ := ih h
          refine ⟨(name, kind) :: before, f, later, middle, member, m, rfl, ?_, hstop⟩
          rw [fields_cons_some hl, hv]
          exact hbefore

/-- A value for which the source has nothing, or a null, is kept however the run ends. -/
theorem get?_fields_of_silent {name : String} {n : Node}
    (silent : ∀ member, lookup source name = some member → member.isNull = true)
    {todo : List (String × Kind)} (h : Entries.get? name held = some n) :
    Entries.get? name (fields source type todo held place).1 = some n := by
  induction todo generalizing held with
  | nil =>
    rw [fields_nil]
    exact h
  | cons first rest ih =>
    obtain ⟨key, kind⟩ := first
    cases hl : lookup source key with
    | none =>
      rw [fields_cons_none hl]
      exact ih h
    | some member =>
      rw [fields_cons_some hl]
      by_cases hkey : key = name
      · subst hkey
        have hslot : slotOf type key held = n := by rw [slotOf, h]
        rw [value_null (silent member hl), hslot]
        dsimp only
        rw [Entries.put_of_get? h]
        exact ih h
      · have hput (decoded : Node) :
            Entries.get? name (Entries.put key decoded held) = some n := by
          rw [Entries.get?_put, if_neg hkey, h]
        cases value kind member (slotOf type key held) (place ++ [.member key]) with
        | mk decoded result =>
          cases result with
          | error e => exact hput decoded
          | ok _ => exact ih (hput decoded)

end Fields

/-- A value that does not fit leaves a slot as it is, if the slot is written without a look at what
it holds. -/
theorem slot_of_value_error {kind : Kind} (hkind : Overwritten kind) {source slot left : Node}
    {place : Place} {e : Error} (h : value kind source slot place = (left, .error e)) :
    left = slot := by
  cases hnull : source.isNull with
  | true =>
    rw [value_null hnull] at h
    cases h
  | false =>
    have hscalar (hk : ScalarKind kind) : left = slot := by
      rw [value_scalar hk hnull] at h
      cases hs : scalarFor kind source.core with
      | some s => rw [hs] at h; cases h
      | none => rw [hs] at h; cases h; rfl
    cases kind with
    | bool => exact hscalar trivial
    | integer => exact hscalar trivial
    | float => exact hscalar trivial
    | string => exact hscalar trivial
    | mapping =>
      rcases value_mapping_cases hnull with ⟨entries, he⟩ | hmismatch
      · rw [value_mapping he] at h
        cases h
      · rw [hmismatch] at h
        cases h
        rfl
    | sequence item =>
      rcases value_sequence_cases hnull item with ⟨items, hi⟩ | hmismatch
      · rw [value_sequence hi] at h
        cases hs : sequence item items place 0 with
        | ok ns => rw [hs] at h; cases h
        | error e => rw [hs] at h; cases h; rfl
      · rw [hmismatch] at h
        cases h
        rfl
    | optional inner =>
      rw [value_optional hnull] at h
      cases hv : value inner source inner.zero place with
      | mk n result =>
        rw [hv] at h
        cases result with
        | ok _ => cases h
        | error e => cases h; rfl
    | record name declared => exact hkind.elim
    | any => exact hkind.elim

/-- The error of a member names the member first. -/
theorem place_of_value_error {kind : Kind} {source slot left : Node} {name : String} {e : Error}
    (h : value kind source slot [.member name] = (left, .error e)) :
    ∃ inner, e.place = .member name :: inner := by
  have hbehind := (relocates source).value kind slot [.member name] []
  rw [List.append_nil, h] at hbehind
  cases hv : value kind source slot [] with
  | mk decoded result =>
    rw [hv] at hbehind
    cases result with
    | ok _ => cases hbehind
    | error e' =>
      cases hbehind
      exact ⟨e'.place, rfl⟩

end Decode

/-! ## A record and its fields -/

section Record

variable {source : Node}

theorem isNull_of_members? (h : source.members? ≠ none) : source.isNull = false := by
  unfold Node.members? at h
  unfold Node.isNull
  cases hn : source.core with
  | null =>
    rw [hn] at h
    exact absurd rfl h
  | _ => rfl

/-- A record is decoded from a source with members field by field. -/
theorem decodeInto_fields (h : source.members? ≠ none) {target : Node} {type : RecordType}
    {held : List (String × Node)} (hcore : target.core = .record type held) :
    decodeInto source target =
      (target.withCore (.record type (Decode.fields source.core type type.fields held []).1),
        (Decode.fields source.core type type.fields held []).2) := by
  have hnull := isNull_of_members? h
  have hmembers : Decode.hasMembers source.core = true := by
    rw [hasMembers_core]
    exact Option.isSome_iff_ne_none.mpr h
  rw [decodeInto, if_neg (by simp [hnull]), Decode.into_of_record hcore hnull,
    Decode.record_of_hasMembers hmembers]

/-- A source without members leaves a record as it is. -/
theorem decodeInto_refused (h : source.members? = none) {target : Node} {type : RecordType}
    {held : List (String × Node)} (hcore : target.core = .record type held) :
    (decodeInto source target).1 = target.withCore (.record type held) := by
  have hself : target.withCore (.record type held) = target := by
    rw [← hcore]
    exact Node.withCore_core target
  have hmembers : ¬ Decode.hasMembers source.core = true := by
    rw [hasMembers_core, h]
    exact Bool.false_ne_true
  unfold decodeInto
  split
  · exact hself.symm
  · rename_i hnull
    rw [Decode.into_of_record hcore (by simpa using hnull), Decode.record, if_neg hmembers]

theorem decodesAlone_of_lookup (h : source.members? ≠ none) {f : String × Kind}
    (hl : Decode.lookup source.core f.1 = none) (name : String) (n : Node) :
    DecodesAlone source name f n n (.ok ()) := by
  have hfields : Decode.fields source.core ⟨name, [f]⟩ [f] [(f.1, n)] [] =
      ([(f.1, n)], .ok ()) := by
    rw [Decode.fields_cons_none hl, Decode.fields_nil]
  rw [DecodesAlone, decodeInto_fields h rfl, hfields]
  rfl

/-- Decoding a field alone is decoding the member found for it into its value. -/
theorem decodesAlone_of_value (h : source.members? ≠ none) {f : String × Kind} {member n m : Node}
    (hl : Decode.lookup source.core f.1 = some member) (name : String)
    {result : Except Decode.Error Unit}
    (hv : Decode.value f.2 member n [.member f.1] = (m, result)) :
    DecodesAlone source name f n m result := by
  have hslot : Decode.slotOf ⟨name, [f]⟩ f.1 [(f.1, n)] = n := by
    rw [Decode.slotOf, Entries.get?, if_pos rfl]
  have hput : Entries.put f.1 m [(f.1, n)] = [(f.1, m)] := by rw [Entries.put, if_pos rfl]
  have hfields : Decode.fields source.core ⟨name, [f]⟩ [f] [(f.1, n)] [] =
      ([(f.1, m)], result) := by
    rw [Decode.fields_cons_some hl, hslot, List.nil_append, hv]
    cases result with
    | error e =>
      dsimp only
      rw [hput]
    | ok _ =>
      dsimp only
      rw [hput, Decode.fields_nil]
  rw [DecodesAlone, decodeInto_fields h rfl, hfields]
  rfl

end Record

/-- A run over the values `held` of a record has failed inside the field `f`, and leaves `left`. -/
structure Stopped (source : Node) (type : RecordType) (held left : List (String × Node))
    (before : List (String × Kind)) (f : String × Kind) (later : List (String × Kind))
    (e : Decode.Error) : Prop where
  order : type.fields = before ++ f :: later
  /-- the place of the error lies in the field -/
  inside : ∃ inner, e.place = .member f.1 :: inner
  earlier : ∀ g ∈ before, Decoded source type held left g
  behind : ∀ g ∈ later, Entries.get? g.1 left = Entries.get? g.1 held
  /-- the field has what its own failure leaves: what it held, unless records are filled in it -/
  own : ∀ n, Entries.get? f.1 held = some n →
    ∃ m, DecodesAlone source type.name f n m (.error e) ∧ Entries.get? f.1 left = some m ∧
      (Decode.Overwritten f.2 → m = n)

/-- What a run has made of the values `held` of a record, when it leaves `left` and ends with
`result`. -/
structure Committed (source : Node) (type : RecordType) (held left : List (String × Node))
    (result : Except Decode.Error Unit) : Prop where
  /-- a value stays if the source has nothing for it, or a null, and so does one not declared -/
  kept : ∀ name n, Entries.get? name held = some n →
    Silent source name ∨ name ∉ Entries.keys type.fields → Entries.get? name left = some n
  /-- a source without members changes nothing -/
  refused : source.members? = none → left = held
  /-- a success is one of every field -/
  completed : source.members? ≠ none → result = .ok () →
    ∀ f ∈ type.fields, Decoded source type held left f
  /-- a failure is one of a single field -/
  stopped : source.members? ≠ none → ∀ e, result = .error e →
    ∃ before f later, Stopped source type held left before f later e
  /-- a record that has its fields has them still, in their order -/
  keys : (∀ f ∈ type.fields, f.1 ∈ Entries.keys held) → Entries.keys left = Entries.keys held

section Committed

variable {source : Node} {type : RecordType} {held left : List (String × Node)}

theorem committed_of_refused (h : source.members? = none) (result : Except Decode.Error Unit) :
    Committed source type held held result where
  kept _ _ hget _ := hget
  refused _ := rfl
  completed hm := absurd h hm
  stopped hm := absurd h hm
  keys _ := rfl

/-- Each of the fields that a run has gone through is decoded. -/
theorem decoded_of_fields (hm : source.members? ≠ none) {todo : List (String × Kind)}
    (hd : Entries.Distinct todo)
    (h : Decode.fields source.core type todo held [] = (left, .ok ())) {f : String × Kind}
    (hf : f ∈ todo) : Decoded source type held left f := by
  intro n hn
  have once : Entries.Once f.1 f.2 todo := Entries.once_of_get? hd (Entries.get?_of_mem hd hf)
  rcases Decode.fields_once once h with ⟨hl, hget⟩ | ⟨member, m, hl, hv, hget⟩
  · exact ⟨n, decodesAlone_of_lookup hm hl type.name n, hget.trans hn⟩
  · have hslot : Decode.slotOf type f.1 held = n := by rw [Decode.slotOf, hn]
    rw [hslot] at hv
    exact ⟨m, decodesAlone_of_value hm hl type.name hv, hget⟩

/-- The fields before the one that fails are decoded, and stay so. -/
theorem stopped_of_fields (hm : source.members? ≠ none) (hd : Entries.Distinct type.fields)
    {e : Decode.Error}
    (h : Decode.fields source.core type type.fields held [] = (left, .error e)) :
    ∃ before f later, Stopped source type held left before f later e := by
  obtain ⟨before, f, later, middle, member, m, hsplit, hbefore, hl, hv, rfl⟩ :=
    Decode.fields_eq_error h
  -- no other field has the name of the one that fails
  have hkeys : (Entries.keys before ++ f.1 :: Entries.keys later).Nodup := by
    rw [Entries.Distinct, hsplit, Entries.keys, List.map_append] at hd
    exact hd
  obtain ⟨hdistinct, hlater, hapart⟩ := List.nodup_append.mp hkeys
  have hnew : f.1 ∉ Entries.keys before := fun hmem => hapart _ hmem _ List.mem_cons_self rfl
  have hmiddle {name : String} (hname : name ∉ Entries.keys before) :
      Entries.get? name middle = Entries.get? name held := by
    have hget : Entries.get? name (Decode.fields source.core type before held []).1 =
        Entries.get? name held := Decode.get?_fields hname
    rw [hbefore] at hget
    exact hget
  have hothers {name : String} (hname : name ≠ f.1) :
      Entries.get? name (Entries.put f.1 m middle) = Entries.get? name middle := by
    rw [Entries.get?_put, if_neg (Ne.symm hname)]
  refine ⟨before, f, later, hsplit, Decode.place_of_value_error hv, fun g hg n hn => ?_,
    fun g hg => ?_, fun n hn => ?_⟩
  · obtain ⟨decoded, halone, hget⟩ := decoded_of_fields hm hdistinct hbefore hg n hn
    have hne : g.1 ≠ f.1 := fun heq => hnew (heq ▸ List.mem_map_of_mem hg)
    exact ⟨decoded, halone, (hothers hne).trans hget⟩
  · have hmem : g.1 ∈ Entries.keys later := List.mem_map_of_mem hg
    have hne : g.1 ≠ f.1 := fun heq => (List.nodup_cons.mp hlater).1 (heq ▸ hmem)
    have hname : g.1 ∉ Entries.keys before :=
      fun hb => hapart _ hb _ (List.mem_cons_of_mem _ hmem) rfl
    exact (hothers hne).trans (hmiddle hname)
  · have hslot : Decode.slotOf type f.1 middle = n := by
      rw [Decode.slotOf, hmiddle hnew, hn]
    rw [hslot] at hv
    refine ⟨m, decodesAlone_of_value hm hl type.name hv, ?_, fun hkind =>
      Decode.slot_of_value_error hkind hv⟩
    rw [Entries.get?_put, if_pos rfl]

theorem committed_of_fields (hm : source.members? ≠ none) (hd : Entries.Distinct type.fields) :
    Committed source type held (Decode.fields source.core type type.fields held []).1
      (Decode.fields source.core type type.fields held []).2 where
  kept name n hn hwhy := by
    rcases hwhy with hsilent | hundeclared
    · obtain ⟨members, hmembers⟩ := Option.ne_none_iff_exists'.mp hm
      refine Decode.get?_fields_of_silent (fun member hl => ?_) hn
      rw [lookup_core hmembers] at hl
      exact hsilent members member hmembers hl
    · rw [Decode.get?_fields hundeclared, hn]
  refused hnone := absurd hnone hm
  completed _ hok _ hf := decoded_of_fields hm hd (Prod.ext rfl hok) hf
  stopped _ _ herror := stopped_of_fields hm hd (Prod.ext rfl herror)
  keys hthere := Decode.keys_fields hthere

end Committed

/-- **Decoding touches what the source names, and a failure commits a prefix.**  The target is a
record of a type that declares no field name twice, perhaps below layers.  Whether decoding succeeds
or fails, a field for which the source has nothing or a null keeps its value.  A failure is one of a
single field: each field before it holds what a successful decoding of that field alone gives, those
behind it are as they were, and it holds what its own failure leaves, which is what it held unless
it is declared with a record type or with `any`.  A source without members changes nothing. -/
theorem decodeInto_commits {source target : Node} {type : RecordType}
    {held : List (String × Node)} (hcore : target.core = .record type held)
    (hd : Entries.Distinct type.fields) :
    ∃ left result, decodeInto source target = (target.withCore (.record type left), result) ∧
      Committed source type held left result := by
  by_cases hm : source.members? = none
  · exact ⟨held, (decodeInto source target).2, Prod.ext (decodeInto_refused hm hcore) rfl,
      committed_of_refused hm _⟩
  · exact ⟨_, _, decodeInto_fields hm hcore, committed_of_fields hm hd⟩

/-- The name has been taken over, the age does not fit, and the tags are left as they were. -/
theorem decodeInto_commits_pet :
    let pet : RecordType := ⟨"Pet", [("Owner", .string), ("Name", .string), ("Age", .integer),
      ("Tags", .mapping)]⟩
    let held : List (String × Node) := [("Owner", .string "Ada"), ("Name", .string ""),
      ("Age", .integer 3), ("Tags", .mapping [])]
    let left : List (String × Node) := [("Owner", .string "Ada"), ("Name", .string "Bo"),
      ("Age", .integer 3), ("Tags", .mapping [])]
    let target : Node := .indirect (.record pet held)
    let source : Node := .mapping [("Tags", .mapping [("shy", .null)]), ("Age", .string "four"),
      ("Name", .string "Bo"), ("Owner", .null)]
    let e : Decode.Error := ⟨[.member "Age"], "integer", "string"⟩
    target.core = .record pet held ∧ Entries.Distinct pet.fields ∧
      decodeInto source target = (.indirect (.record pet left), .error e) ∧
      Committed source pet held left (.error e) := by
  intro pet held left target source e
  have hd : Entries.Distinct pet.fields := by
    simp [pet, Entries.Distinct, Entries.keys]
  have hdecode : decodeInto source target = (.indirect (.record pet left), .error e) := by
    simp [source, target, held, left, pet, e, decodeInto, Decode.into, Decode.record,
      Decode.fields, Decode.value, Decode.lookup, Decode.hasMembers, Decode.scalarFor,
      Decode.mismatch, Entries.find?, Entries.resolve?, Entries.get?, Entries.put, Node.core,
      Node.withCore, Node.isNull, Node.kindName, Node.string, Node.integer, Scalar.kindName,
      Kind.text]
  have hcore : target.core = .record pet held := rfl
  have hrun : ∃ left result, decodeInto source target =
      (target.withCore (.record pet left), result) ∧ Committed source pet held left result :=
    decodeInto_commits hcore hd
  obtain ⟨left', result, hleft, hcommitted⟩ := hrun
  rw [hdecode] at hleft
  cases hleft
  exact ⟨hcore, hd, hdecode, hcommitted⟩

end Polydoc
