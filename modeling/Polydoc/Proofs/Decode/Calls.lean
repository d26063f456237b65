/-
  Proofs/Decode/Calls.lean --- the decoder never has to make a field that a record should have.

  A field that is missing in a record would be made afresh before it is filled.  The calls that one
  run of the decoder makes of its own functions are listed here; in each of them the records are
  exact, so the field that is to be filled next is there.  This goes for all documents that come of
  parsed ones and of fresh values by whatever can be done to documents.

  That the list is complete is a theorem: a call whose inner calls are answered by some function
  answers as the decoder does, if that function does so for the calls in the list.
-/
import Mathlib.Logic.Relation
import Polydoc.Proofs.Decode.Exactness

set_option autoImplicit false

namespace Polydoc

open Node

namespace Decode

/-! ## The calls of a run -/

/-- A call of one of the decoder's functions, with what it is given. -/
inductive Task where
  | value (kind : Kind) (source slot : Node) (place : Place)
  | sequence (item : Kind) (items : List Node) (place : Place) (index : Nat)
  | record (source : Node) (type : RecordType) (held : List (String × Node)) (place : Place)
  | fields (source : Node) (type : RecordType) (todo : List (String × Kind))
      (held : List (String × Node)) (place : Place)
  | into (source slot : Node) (place : Place)
  | merge (values entries : List (String × Node)) (place : Place)

/-- What a call may call in its turn.  Whether it does may depend on more: it does not where the
source is null or has no members, nor once something has failed. -/
inductive Calls : Task → Task → Prop where
  | items {item : Kind} {source slot : Node} {place : Place} {items : List Node}
      (h : source.core = .sequence items) :
      Calls (.value (.sequence item) source slot place) (.sequence item items place 0)
  | inner {inner : Kind} {source slot : Node} {place : Place} :
      Calls (.value (.optional inner) source slot place) (.value inner source inner.zero place)
  | declared {name : String} {fields : List (String × Kind)} {source slot : Node} {place : Place}
      {type : RecordType} {held : List (String × Node)}
      (h : (recordFor ⟨name, fields⟩ slot).core = .record type held) :
      Calls (.value (.record name fields) source slot place)
        (.record source.core type held place)
  | any {source slot : Node} {place : Place} :
      Calls (.value .any source slot place) (.into source slot place)
  | item {item : Kind} {source : Node} {rest : List Node} {place : Place} {index : Nat} :
      Calls (.sequence item (source :: rest) place index)
        (.value item source item.zero (place ++ [.item index]))
  | nextItem {item : Kind} {source : Node} {rest : List Node} {place : Place} {index : Nat} :
      Calls (.sequence item (source :: rest) place index) (.sequence item rest place (index + 1))
  | fields {source : Node} {type : RecordType} {held : List (String × Node)} {place : Place} :
      Calls (.record source type held place) (.fields source type type.fields held place)
  | absent {source : Node} {type : RecordType} {name : String} {kind : Kind}
      {rest : List (String × Kind)} {held : List (String × Node)} {place : Place}
      (h : lookup source name = none) :
      Calls (.fields source type ((name, kind) :: rest) held place)
        (.fields source type rest held place)
  | field {source member : Node} {type : RecordType} {name : String} {kind : Kind}
      {rest : List (String × Kind)} {held : List (String × Node)} {place : Place}
      (h : lookup source name = some member) :
      Calls (.fields source type ((name, kind) :: rest) held place)
        (.value kind member (slotOf type name held) (place ++ [.member name]))
  | nextField {source member : Node} {type : RecordType} {name : String} {kind : Kind}
      {rest : List (String × Kind)} {held : List (String × Node)} {place : Place}
      (h : lookup source name = some member) :
      Calls (.fields source type ((name, kind) :: rest) held place)
        (.fields source type rest (Entries.put name
          (value kind member (slotOf type name held) (place ++ [.member name])).1 held) place)
  | record {source slot : Node} {place : Place} {type : RecordType} {held : List (String × Node)}
      (h : slot.core = .record type held) :
      Calls (.into source slot place) (.record source.core type held place)
  | merge {source slot : Node} {place : Place} {values entries : List (String × Node)}
      (h : slot.core = .mapping entries) (hsource : source.core = .mapping values) :
      Calls (.into source slot place) (.merge values entries place)
  | newEntry {key : String} {source : Node} {rest entries : List (String × Node)} {place : Place}
      (h : Entries.get? key entries = none) :
      Calls (.merge ((key, source) :: rest) entries place)
        (.merge rest (Entries.put key source entries) place)
  | entry {key : String} {source slot : Node} {rest entries : List (String × Node)}
      {place : Place} (h : Entries.get? key entries = some slot) :
      Calls (.merge ((key, source) :: rest) entries place)
        (.into source slot (place ++ [.member key]))
  | nextEntry {key : String} {source slot : Node} {rest entries : List (String × Node)}
      {place : Place} (h : Entries.get? key entries = some slot) :
      Calls (.merge ((key, source) :: rest) entries place)
        (.merge rest (Entries.put key (into source slot (place ++ [.member key])).1 entries) place)

/-! ## The calls and the decoder

The decoder is taken apart into single calls, which leave the calls in them to a function that they
are given.  Nothing but the listed calls is asked of that function. -/

/-- What a call answers with. -/
abbrev Task.Result : Task → Type
  | .value _ _ _ _ => Outcome Node
  | .sequence _ _ _ _ => Except Error (List Node)
  | .record _ _ _ _ => Outcome (List (String × Node))
  | .fields _ _ _ _ _ => Outcome (List (String × Node))
  | .into _ _ _ => Outcome Node
  | .merge _ _ _ => Outcome (List (String × Node))

/-- What the decoder answers. -/
def Task.run : (task : Task) → task.Result
  | .value kind source slot place => Decode.value kind source slot place
  | .sequence item items place index => Decode.sequence item items place index
  | .record source type held place => Decode.record source type held place
  | .fields source type todo held place => Decode.fields source type todo held place
  | .into source slot place => Decode.into source slot place
  | .merge values entries place => Decode.merge values entries place

section Stepping

variable (call : (task : Task) → task.Result)

/-- What a call of `value` makes of the answers that `call` gives. -/
def stepValue (kind : Kind) (source slot : Node) (place : Place) : Outcome Node :=
  if source.isNull then (slot, .ok ())
  else
    match kind with
    | .bool | .integer | .float | .string =>
      match scalarFor kind source.core with
      | some s => (.scalar s, .ok ())
      | none => (slot, .error (mismatch place kind.text source))
    | .mapping =>
      match source.core with
      | .mapping entries => (.mapping entries, .ok ())
      | _ => (slot, .error (mismatch place kind.text source))
    | .sequence item =>
      match source.core with
      | .sequence items =>
        match call (.sequence item items place 0) with
        | .ok decoded => (.sequence decoded, .ok ())
        | .error e => (slot, .error e)
      | _ => (slot, .error (mismatch place kind.text source))
    | .optional inner =>
      match call (.value inner source inner.zero place) with
      | (decoded, .ok ()) => (.indirect decoded, .ok ())
      | (_, .error e) => (slot, .error e)
    | .record name fields =>
      let slot := recordFor ⟨name, fields⟩ slot
      match slot.core with
      | .record type held =>
        let (held, result) := call (.record source.core type held place)
        (slot.withCore (.record type held), result)
      | _ => (slot, .ok ())
    | .any => call (.into source slot place)

def stepSequence (item : Kind) (items : List Node) (place : Place) (index : Nat) :
    Except Error (List Node) :=
  match items with
  | [] => .ok []
  | source :: rest =>
    match call (.value item source item.zero (place ++ [.item index])) with
    | (_, .error e) => .error e
    | (decoded, .ok ()) =>
      match call (.sequence item rest place (index + 1)) with
      | .ok more => .ok (decoded :: more)
      | .error e => .error e

def stepFields (source : Node) (type : RecordType) (todo : List (String × Kind))
    (held : List (String × Node)) (place : Place) : Outcome (List (String × Node)) :=
  match todo with
  | [] => (held, .ok ())
  | (name, kind) :: rest =>
    match lookup source name with
    | none => call (.fields source type rest held place)
    | some member =>
      match call (.value kind member (slotOf type name held) (place ++ [.member name])) with
      | (decoded, .ok ()) => call (.fields source type rest (Entries.put name decoded held) place)
      | (decoded, .error e) => (Entries.put name decoded held, .error e)

def stepInto (source slot : Node) (place : Place) : Outcome Node :=
  match slot.core with
  | .record type held =>
    if source.isNull then (slot, .ok ())
    else
      let (held, result) := call (.record source.core type held place)
      (slot.withCore (.record type held), result)
  | .mapping entries =>
    match source.core with
    | .mapping values =>
      let (entries, result) := call (.merge values entries place)
      (slot.withCore (.mapping entries), result)
    | other => (slot.withCore other, .ok ())
  | _ => (slot.withCore source.core, .ok ())

def stepMerge (values entries : List (String × Node)) (place : Place) :
    Outcome (List (String × Node)) :=
  match values with
  | [] => (entries, .ok ())
  | (key, source) :: rest =>
    match Entries.get? key entries with
    | none => call (.merge rest (Entries.put key source entries) place)
    | some slot =>
      match call (.into source slot (place ++ [.member key])) with
      | (decoded, .ok ()) => call (.merge rest (Entries.put key decoded entries) place)
      | (decoded, .error e) => (Entries.put key decoded entries, .error e)

/-- What a call makes of the answers that `call` gives to the calls in it: the decoder's own
functions with `call` in the place of each other. -/
def Task.step : (task : Task) → task.Result
  | .value kind source slot place => stepValue call kind source slot place
  | .sequence item items place index => stepSequence call item items place index
  | .record source type held place =>
    if hasMembers source then call (.fields source type type.fields held place)
    else (held, .error (mismatch place type.name source))
  | .fields source type todo held place => stepFields call source type todo held place
  | .into source slot place => stepInto call source slot place
  | .merge values entries place => stepMerge call values entries place

end Stepping

section Answers

variable {call : (task : Task) → task.Result}

theorem stepValue_eq {kind : Kind} {source slot : Node} {place : Place}
    (h : ∀ next, Calls (.value kind source slot place) next → call next = next.run) :
    stepValue call kind source slot place = value kind source slot place := by
  unfold stepValue
  by_cases hnull : source.isNull = true
  · rw [value_null hnull, if_pos hnull]
  · rw [if_neg hnull]
    rw [Bool.not_eq_true] at hnull
    cases kind with
    | bool => exact (value_scalar (show ScalarKind .bool from trivial) hnull).symm
    | integer => exact (value_scalar (show ScalarKind .integer from trivial) hnull).symm
    | float => exact (value_scalar (show ScalarKind .float from trivial) hnull).symm
    | string => exact (value_scalar (show ScalarKind .string from trivial) hnull).symm
    | mapping =>
      dsimp only
      split
      · rename_i entries hcore
        rw [value_mapping hcore]
      · rename_i hcore
        rw [value_mapping_mismatch hnull hcore]
    | sequence item =>
      dsimp only
      split
      · rename_i items hcore
        have hitems : call (.sequence item items place 0) = sequence item items place 0 :=
          h _ (.items hcore)
        rw [value_sequence hcore, hitems]
        cases sequence item items place 0 <;> rfl
      · rename_i hcore
        rw [value_sequence_mismatch hnull hcore]
    | optional inner =>
      have hinner : call (.value inner source inner.zero place) =
          value inner source inner.zero place := h _ .inner
      dsimp only
      rw [value_optional hnull, hinner]
      cases value inner source inner.zero place with
      | mk decoded result => cases result <;> rfl
    | record name fields =>
      obtain ⟨type, held, hslot⟩ := exists_recordFor ⟨name, fields⟩ slot
      have hrecord : call (.record source.core type held place) =
          record source.core type held place := h _ (.declared hslot)
      rw [value_ofFields hnull hslot]
      dsimp only
      rw [hslot]
      dsimp only
      rw [hrecord]
    | any =>
      rw [value_any hnull]
      exact h _ .any

theorem stepSequence_eq {item : Kind} {items : List Node} {place : Place} {index : Nat}
    (h : ∀ next, Calls (.sequence item items place index) next → call next = next.run) :
    stepSequence call item items place index = sequence item items place index := by
  unfold stepSequence
  cases items with
  | nil => rw [sequence_nil]
  | cons source rest =>
    have hfirst : call (.value item source item.zero (place ++ [.item index])) =
        value item source item.zero (place ++ [.item index]) := h _ .item
    have hrest : call (.sequence item rest place (index + 1)) =
        sequence item rest place (index + 1) := h _ .nextItem
    dsimp only
    rw [sequence_cons, hfirst, hrest]
    cases value item source item.zero (place ++ [.item index]) with
    | mk decoded result =>
      cases result with
      | error e => rfl
      | ok _ => cases sequence item rest place (index + 1) <;> rfl

theorem stepFields_eq {source : Node} {type : RecordType} {todo : List (String × Kind)}
    {held : List (String × Node)} {place : Place}
    (h : ∀ next, Calls (.fields source type todo held place) next → call next = next.run) :
    stepFields call source type todo held place = fields source type todo held place := by
  unfold stepFields
  cases todo with
  | nil => rw [fields_nil]
  | cons entry rest =>
    obtain ⟨name, kind⟩ := entry
    dsimp only
    split
    · rename_i hlookup
      rw [fields_cons_none hlookup]
      exact h _ (.absent hlookup)
    · rename_i member hlookup
      have hfield : call (.value kind member (slotOf type name held) (place ++ [.member name])) =
          value kind member (slotOf type name held) (place ++ [.member name]) :=
        h _ (.field hlookup)
      have hrest : ∀ decoded,
          (value kind member (slotOf type name held) (place ++ [.member name])).1 = decoded →
          call (.fields source type rest (Entries.put name decoded held) place) =
            fields source type rest (Entries.put name decoded held) place := by
        rintro _ rfl
        exact h _ (.nextField hlookup)
      rw [fields_cons_some hlookup, hfield]
      split
      · rename_i decoded hvalue
        rw [hvalue]
        exact hrest decoded (by rw [hvalue])
      · rename_i hvalue
        rw [hvalue]

theorem stepInto_eq {source slot : Node} {place : Place}
    (h : ∀ next, Calls (.into source slot place) next → call next = next.run) :
    stepInto call source slot place = into source slot place := by
  unfold stepInto
  split
  · rename_i type held hslot
    by_cases hnull : source.isNull = true
    · rw [into_of_record_null hslot hnull, if_pos hnull]
    · have hrecord : call (.record source.core type held place) =
          record source.core type held place := h _ (.record hslot)
      rw [if_neg hnull, into_of_record hslot (by simpa using hnull), hrecord]
  · rename_i entries hslot
    split
    · rename_i values hsource
      have hmerge : call (.merge values entries place) = merge values entries place :=
        h _ (.merge hslot hsource)
      rw [into_of_mappings hslot hsource, hmerge]
    · rename_i hsource
      rw [into_of_other (fun type held hrecord => by rw [hslot] at hrecord; cases hrecord)
        (fun _ values _ hvalues => hsource values hvalues)]
  · rename_i hrecord hmapping
    rw [into_of_other hrecord fun entries _ hentries => absurd hentries (hmapping entries)]

theorem stepMerge_eq {values entries : List (String × Node)} {place : Place}
    (h : ∀ next, Calls (.merge values entries place) next → call next = next.run) :
    stepMerge call values entries place = merge values entries place := by
  unfold stepMerge
  cases values with
  | nil => rw [merge_nil]
  | cons entry rest =>
    obtain ⟨key, source⟩ := entry
    dsimp only
    split
    · rename_i hget
      rw [merge_cons_none hget]
      exact h _ (.newEntry hget)
    · rename_i slot hget
      have hentry : call (.into source slot (place ++ [.member key])) =
          into source slot (place ++ [.member key]) := h _ (.entry hget)
      have hrest : ∀ decoded, (into source slot (place ++ [.member key])).1 = decoded →
          call (.merge rest (Entries.put key decoded entries) place) =
            merge rest (Entries.put key decoded entries) place := by
        rintro _ rfl
        exact h _ (.nextEntry hget)
      rw [merge_cons_some hget, hentry]
      split
      · rename_i decoded hinto
        rw [hinto]
        exact hrest decoded (by rw [hinto])
      · rename_i hinto
        rw [hinto]

/-- **No call is missing in the list.**  What a call answers is made of the answers that the calls
listed for it give, whatever others would answer. -/
theorem Task.step_eq_run {task : Task}
    (h : ∀ next, Calls task next → call next = next.run) : task.step call = task.run := by
  cases task with
  | value kind source slot place => exact stepValue_eq h
  | sequence item items place index => exact stepSequence_eq h
  | record source type held place =>
    have hfields : call (.fields source type type.fields held place) =
        Decode.fields source type type.fields held place := h _ .fields
    unfold Task.step Task.run
    dsimp only
    rw [Decode.record, hfields]
  | fields source type todo held place => exact stepFields_eq h
  | into source slot place => exact stepInto_eq h
  | merge values entries place => exact stepMerge_eq h

end Answers

/-- With its own answers for the calls in it, a step is the decoder. -/
theorem Task.step_run (task : Task) : task.step Task.run = task.run :=
  Task.step_eq_run fun _ _ => rfl

/-! ## What is given to the calls -/

/-- A call is given exact documents, and fields of the type of its record. -/
def Task.Exact : Task → Prop
  | .value _ source slot _ => source.Exact ∧ slot.Exact
  | .sequence _ items _ _ => ∀ n ∈ items, n.Exact
  | .record source type held _ => source.Exact ∧ (Node.record type held).Exact
  | .fields source type todo held _ =>
    source.Exact ∧ (Node.record type held).Exact ∧ ∀ e ∈ todo, e ∈ type.fields
  | .into source slot _ => source.Exact ∧ slot.Exact
  | .merge values entries _ => (∀ e ∈ values, e.2.Exact) ∧ ∀ e ∈ entries, e.2.Exact

/-- What is called is given exact documents again. -/
theorem Calls.exact {task next : Task} (h : Calls task next) (ht : task.Exact) : next.Exact := by
  cases h with
  | items h => exact fun n hn => (h ▸ ht.1.core).part (.item hn .here)
  | @inner inner _ _ _ => exact ⟨ht.1, exact_zero inner⟩
  | declared h => exact ⟨ht.1.core, h ▸ (exact_recordFor ht.2).core⟩
  | any => exact ht
  | @item item _ _ _ _ => exact ⟨ht _ List.mem_cons_self, exact_zero item⟩
  | nextItem => exact fun n hn => ht n (List.mem_cons_of_mem _ hn)
  | fields => exact ⟨ht.1, ht.2, fun e he => he⟩
  | absent h => exact ⟨ht.1, ht.2.1, fun e he => ht.2.2 e (List.mem_cons_of_mem _ he)⟩
  | field h =>
    obtain ⟨hsource, hheld, htodo⟩ := ht
    obtain ⟨slot, hslot, hexact⟩ :=
      exists_slot hheld (List.mem_map_of_mem (htodo _ List.mem_cons_self))
    exact ⟨hsource.part (part_of_lookup h), by rw [slotOf, hslot]; exact hexact⟩
  | nextField h =>
    obtain ⟨hsource, hheld, htodo⟩ := ht
    exact ⟨hsource, field_exact (keepsExact (hsource.part (part_of_lookup h))) hheld
      (htodo _ List.mem_cons_self), fun e he => htodo e (List.mem_cons_of_mem _ he)⟩
  | record h => exact ⟨ht.1.core, h ▸ ht.2.core⟩
  | merge h hsource =>
    exact ⟨fun e he => (hsource ▸ ht.1.core).part (.entry he .here),
      fun e he => (h ▸ ht.2.core).part (.entry he .here)⟩
  | newEntry h =>
    exact ⟨fun e he => ht.1 e (List.mem_cons_of_mem _ he),
      Entries.forall_mem_put ht.2 (ht.1 _ List.mem_cons_self)⟩
  | entry h => exact ⟨ht.1 _ List.mem_cons_self, ht.2 _ (Entries.mem_of_get? h)⟩
  | @nextEntry key source slot rest entries place h =>
    have hinto : (into source slot (place ++ [.member key])).1.Exact :=
      (keepsExact (ht.1 _ List.mem_cons_self)).into _ (ht.2 _ (Entries.mem_of_get? h))
    exact ⟨fun e he => ht.1 e (List.mem_cons_of_mem _ he), Entries.forall_mem_put ht.2 hinto⟩

/-- So is whatever a run comes to. -/
theorem exact_of_calls {first task : Task} (h : Relation.ReflTransGen Calls first task)
    (hfirst : first.Exact) : task.Exact := by
  induction h with
  | refl => exact hfirst
  | tail _ hstep ih => exact hstep.exact ih

end Decode

/-! ## Reachable documents -/

/-- The documents that come of parsed ones and of fresh values: places are overwritten with such
documents, types are assigned to places, and such documents are decoded into one another, whether
that succeeds or fails. -/
inductive Reachable : Node → Prop where
  | parsed {n : Node} (h : Parsed n) : Reachable n
  | fresh (kind : Kind) : Reachable kind.zero
  | overwritten {n m value : Node} {p : Path} (before : Reachable n) (new : Reachable value)
      (h : n.setAt? p value = .ok m) : Reachable m
  | assigned {n m : Node} {p : Path} {t : RecordType} (before : Reachable n)
      (h : n.assignTypeAt? p t = .ok m) : Reachable m
  | filled {source target : Node} (given : Reachable source) (before : Reachable target) :
      Reachable (decodeInto source target).1
  | decoded (r : Resolver) {source target : Node} (given : Reachable source)
      (before : Reachable target) : Reachable (r.decode source target).1

theorem Reachable.exact {n : Node} (h : Reachable n) : n.Exact := by
  induction h with
  | parsed h => exact exact_of_recordFree h.plain.recordFree
  | fresh kind => exact exact_zero kind
  | overwritten _ _ h ihn ihvalue => exact setAt?_exact ihn ihvalue h
  | assigned _ h ih => exact assignTypeAt?_exact ih h
  | filled _ _ ihsource ihtarget => exact decodeInto_exact ihsource ihtarget
  | decoded r _ _ ihsource ihtarget => exact Resolver.decode_exact ihsource ihtarget

/-- The records of a document have the fields that their types declare. -/
structure Node.Intact (n : Node) : Prop where
  /-- each name is there once, in the order in which the names first stand in the type -/
  names : ∀ type held, Part (.record type held) n →
    Entries.Distinct held ∧ Entries.keys held = type.names
  /-- the text of a record has a member for each name, in that order -/
  written : ∀ type held, Part (.record type held) n → ∀ (form : Json.Form) (level : Nat),
    Json.chars form level (.record type held) =
      form.bracketed level '\x7b' '\x7d' (type.names.map fun name =>
        Json.quoted name ++ form.colon ++
          Json.chars form (level + 1) ((Entries.get? name held).getD .null))
  /-- whatever is decoded into the document, each field is there when it is to be filled, and
  filling it adds no name to its record -/
  found : ∀ source, Reachable source → ∀ {given type name kind todo held place},
    Relation.ReflTransGen Decode.Calls (.into source n [])
        (.fields given type ((name, kind) :: todo) held place) →
      ∃ slot, Entries.get? name held = some slot ∧
        ∀ value, Entries.keys (Entries.put name value held) = Entries.keys held

/-- **Records keep the fields of their types.**  This is so in every document that comes of parsed
ones and of fresh values, also for a type that declares a name twice; and such a type makes the same
fresh fields as the one to which its fields were added one by one. -/
theorem Reachable.intact {n : Node} (h : Reachable n) :
    n.Intact ∧ ∀ name fields, ∃ held,
      RecordType.zero ⟨name, fields⟩ = .record ⟨name, fields⟩ held ∧
        (RecordType.ofFields name fields).zero =
          .record (RecordType.ofFields name fields) held := by
  have hkeys : ∀ type held, Part (.record type held) n → Entries.keys held = type.names := h.exact
  refine ⟨⟨fun type held hp => ⟨?_, hkeys type held hp⟩,
    fun type held hp => Json.chars_record (hkeys type held hp), ?_⟩, RecordType.zero_ofFields⟩
  · rw [Entries.Distinct, hkeys type held hp]
    exact type.nodup_names
  · intro source hsource given type name kind todo held place hcalls
    have hfirst : (Decode.Task.into source n []).Exact := ⟨hsource.exact, h.exact⟩
    obtain ⟨_, hheld, htodo⟩ := Decode.exact_of_calls hcalls hfirst
    obtain ⟨slot, hslot, _⟩ :=
      Decode.exists_slot hheld (List.mem_map_of_mem (htodo _ List.mem_cons_self))
    exact ⟨slot, hslot, Entries.keys_put_of_mem (Entries.mem_keys_of_get? hslot)⟩

/-- Decoding into a record whose type declares a name twice stops at the second field; the next run
passes over the first one. -/
theorem Reachable.intact_pony :
    let pony : RecordType := ⟨"Pony", [("name", .string), ("hands", .integer), ("name", .any)]⟩
    let later : List (String × Kind) := [("hands", .integer), ("name", .any)]
    let broken : Node := .mapping [("name", .string "Bo"), ("hands", .string "tall")]
    let given : Node := .mapping [("hands", .integer 15)]
    let held : List (String × Node) := [("name", .string "Bo"), ("hands", .integer 0)]
    let stopped : Node := .record pony held
    decodeInto broken pony.zero = (stopped, .error ⟨[.member "hands"], "integer", "string"⟩) ∧
      Reachable stopped ∧ pony.names = ["name", "hands"] ∧
      Entries.Distinct held ∧ Entries.keys held = pony.names ∧
      Relation.ReflTransGen Decode.Calls (.into given stopped [])
        (.fields given pony later held []) ∧
      ∃ slot, Entries.get? "hands" held = some slot ∧
        ∀ value, Entries.keys (Entries.put "hands" value held) = Entries.keys held := by
  intro pony later broken given held stopped
  have hstopped : decodeInto broken pony.zero =
      (stopped, .error ⟨[.member "hands"], "integer", "string"⟩) := by
    simp [broken, pony, stopped, held, decodeInto, Decode.into, Decode.record, Decode.fields,
      Decode.value, Decode.lookup, Decode.hasMembers, Decode.scalarFor, Decode.mismatch, Kind.zero,
      Kind.zeroFields, Kind.ofType, Kind.text, RecordType.zero, Entries.ofList, Entries.putAll,
      Entries.put, Entries.get?, Entries.find?, Entries.resolve?, Node.core, Node.isNull,
      Node.string, Node.integer, Node.withCore, Node.kindName, Scalar.kindName]
  have hbroken : Parsed broken :=
    parsed_mapping (by simp [Entries.Distinct, Entries.keys])
      (List.forall_mem_cons.mpr ⟨parsed_scalar _,
        List.forall_mem_cons.mpr ⟨parsed_scalar _, List.forall_mem_nil _⟩⟩)
  have hgiven : Parsed given :=
    parsed_mapping (by simp [Entries.Distinct, Entries.keys])
      (List.forall_mem_cons.mpr ⟨parsed_scalar _, List.forall_mem_nil _⟩)
  have hreachable : Reachable stopped := by
    have hfilled := Reachable.filled (.parsed hbroken) (.fresh (.ofType pony))
    rwa [show (Kind.ofType pony).zero = pony.zero from rfl, hstopped] at hfilled
  have hname : Decode.lookup given "name" = none := by
    have hcase : ¬ Text.lowercase "hands" = Text.lowercase "name" := by decide +kernel
    simp [given, Decode.lookup, Entries.find?, Entries.resolve?, Entries.get?, Entries.foldedKey?,
      hcase]
  have hcalls : Relation.ReflTransGen Decode.Calls (.into given stopped [])
      (.fields given pony later held []) :=
    .head (.record rfl) (.head .fields (.single (.absent hname)))
  obtain ⟨hdistinct, hkeys⟩ := hreachable.intact.1.names pony held .here
  exact ⟨hstopped, hreachable, by decide, hdistinct, hkeys, hcalls,
    hreachable.intact.1.found given (.parsed hgiven) hcalls⟩

end Polydoc
