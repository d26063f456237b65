/-
  Proofs/Node/Exact.lean --- records that have each name of their type once.

  A type may declare a name twice; a record of it has one field of that name, where the name first
  stands.  A document is exact when every record in it has the names of its type, in their order.
  Such records are written out with each declared name once.
-/
import Mathlib.Data.List.Induction
import Polydoc.Json.Writer
import Polydoc.Proofs.Document.Parsed

set_option autoImplicit false

namespace Polydoc

/-! ## The keys of a dictionary of pairs -/

namespace Entries

section Keys

variable {κ α β : Type} [DecidableEq κ]

theorem foldl_addKey_nil (ks : List κ) : ks.foldl addKey [] = ks.eraseDups := by
  induction ks using List.reverseRecOn with
  | nil => rfl
  | append_singleton rest key ih =>
    rw [List.foldl_append, ih, List.eraseDups_append]
    by_cases hkey : key ∈ rest
    · simp [addKey, hkey, List.removeAll]
    · simp [addKey, hkey, List.removeAll, List.eraseDups_cons]

/-- The dictionary of pairs has each of their keys once, in the order in which they first stand
there. -/
theorem keys_ofList (pairs : List (κ × α)) : keys (ofList pairs) = (keys pairs).eraseDups := by
  rw [ofList, keys_putAll]
  exact foldl_addKey_nil (keys pairs)

/-- What is made of each pair is made of each key and its value, where no key stands twice. -/
theorem map_eq_map_keys {entries : List (κ × α)} (hd : Distinct entries) (f : κ → α → β)
    (missing : α) :
    (entries.map fun e => f e.1 e.2) =
      (keys entries).map fun key => f key ((get? key entries).getD missing) := by
  rw [keys, List.map_map]
  refine List.map_congr_left fun e he => ?_
  obtain ⟨key, value⟩ := e
  rw [Function.comp_apply, get?_of_mem hd he, Option.getD_some]

end Keys

end Entries

namespace RecordType

/-- The names that a type declares, each once, in the order in which they first stand there. -/
def names (t : RecordType) : List String :=
  (Entries.keys t.fields).eraseDups

theorem mem_names {t : RecordType} {name : String} :
    name ∈ t.names ↔ name ∈ Entries.keys t.fields :=
  List.mem_eraseDups

theorem nodup_names (t : RecordType) : t.names.Nodup := by
  rw [names, ← Entries.keys_ofList]
  exact Entries.distinct_ofList t.fields

end RecordType

/-! ## Exact documents -/

namespace Node

/-- Every record in a document has the names of its type. -/
def Exact (n : Node) : Prop :=
  ∀ type held, Part (.record type held) n → Entries.keys held = type.names

theorem Exact.part {m n : Node} (h : Exact n) (hp : Part m n) : Exact m :=
  fun type held hr => h type held (hr.trans hp)

theorem Exact.core {n : Node} (h : Exact n) : Exact n.core :=
  h.part (part_core n)

theorem exact_of_recordFree {n : Node} (h : RecordFree n) : Exact n :=
  fun type held hr => absurd hr (h type held)

theorem exact_scalar (s : Scalar) : Exact (.scalar s) :=
  exact_of_recordFree (recordFree_scalar s)

theorem exact_sequence {items : List Node} (h : ∀ n ∈ items, Exact n) :
    Exact (.sequence items) := by
  intro type held hp
  cases hp with
  | item mem inner => exact h _ mem type held inner

theorem exact_mapping {entries : List (String × Node)} (h : ∀ e ∈ entries, Exact e.2) :
    Exact (.mapping entries) := by
  intro type held hp
  cases hp with
  | entry mem inner => exact h _ mem type held inner

theorem exact_indirect {n : Node} (h : Exact n) : Exact (.indirect n) := by
  intro type held hp
  cases hp with
  | layer inner => exact h type held inner

theorem exact_record_iff {type : RecordType} {held : List (String × Node)} :
    Exact (.record type held) ↔ Entries.keys held = type.names ∧ ∀ e ∈ held, Exact e.2 := by
  constructor
  · exact fun h => ⟨h type held .here, fun e he => h.part (.field he .here)⟩
  · rintro ⟨hkeys, hvalues⟩ other values hp
    cases hp with
    | here => exact hkeys
    | field mem inner => exact hvalues _ mem other values inner

theorem Exact.withCore {n c : Node} (h : Exact n) (hc : Exact c) : Exact (n.withCore c) := by
  induction n using Node.core.induct with
  | case1 inner ih => exact exact_indirect (ih (h.part (.layer .here)))
  | case2 n hn =>
    cases n with
    | indirect inner => exact absurd rfl (hn inner)
    | _ => exact hc

theorem exact_zero (kind : Kind) : Exact kind.zero := by
  intro type held hp
  rw [(Kind.fits_any_iff.mp kind.zero_fits.sound type held hp).names, Entries.keys_ofList]
  rfl

/-! One value stored -/

section Storing

variable {key : String} {value : Node} {entries : List (String × Node)}

/-- A record stays exact if a value is stored under one of its names. -/
theorem Exact.record_put {type : RecordType} (h : Exact (.record type entries))
    (hkey : key ∈ Entries.keys entries) (hvalue : Exact value) :
    Exact (.record type (Entries.put key value entries)) := by
  obtain ⟨hkeys, hvalues⟩ := exact_record_iff.mp h
  exact exact_record_iff.mpr
    ⟨(Entries.keys_put_of_mem hkey value).trans hkeys, Entries.forall_mem_put hvalues hvalue⟩

end Storing

end Node

open Node

/-! ## Fresh records -/

theorem Kind.zeroFields_ofList (fields : List (String × Kind)) :
    zeroFields (Entries.ofList fields) = Entries.ofList (zeroFields fields) := by
  have hall : ∀ (rest before : List (String × Kind)),
      zeroFields (Entries.putAll before rest) =
        Entries.putAll (zeroFields before) (zeroFields rest) := by
    intro rest
    induction rest with
    | nil => intro before; rfl
    | cons e rest ih =>
      intro before
      obtain ⟨key, kind⟩ := e
      have hstep := ih (Entries.put key kind before)
      rw [zeroFields_put] at hstep
      exact hstep
  exact hall fields []

/-- A type whose names are repeated makes the same fresh fields as one to which its fields were
added one by one, where a later field takes the place of an earlier one of its name. -/
theorem RecordType.zero_ofFields (name : String) (fields : List (String × Kind)) :
    ∃ held, RecordType.zero ⟨name, fields⟩ = .record ⟨name, fields⟩ held ∧
      (RecordType.ofFields name fields).zero = .record (RecordType.ofFields name fields) held := by
  refine ⟨Entries.ofList (Kind.zeroFields fields), rfl, ?_⟩
  have hfields : Entries.ofList (Kind.zeroFields (Entries.ofList fields)) =
      Entries.ofList (Kind.zeroFields fields) := by
    rw [Kind.zeroFields_ofList, Entries.ofList_of_distinct (Entries.distinct_ofList _)]
  exact congrArg (Node.record (RecordType.ofFields name fields)) hfields

/-! ## Writing -/

theorem Json.memberChars_eq_map (form : Json.Form) (level : Nat) (entries : List (String × Node)) :
    memberChars form level entries =
      entries.map fun e => quoted e.1 ++ form.colon ++ chars form level e.2 := by
  induction entries with
  | nil => rfl
  | cons e rest ih =>
    obtain ⟨key, n⟩ := e
    rw [memberChars, ih, List.map_cons]

/-- The text of a record with the names of its type has a member for each of them, in their
order. -/
theorem Json.chars_record {type : RecordType} {held : List (String × Node)}
    (h : Entries.keys held = type.names) (form : Json.Form) (level : Nat) :
    chars form level (.record type held) =
      form.bracketed level '\x7b' '\x7d' (type.names.map fun name =>
        quoted name ++ form.colon ++
          chars form (level + 1) ((Entries.get? name held).getD .null)) := by
  have hdistinct : Entries.Distinct held := by
    rw [Entries.Distinct, h]
    exact type.nodup_names
  rw [chars, memberChars_eq_map, ← h]
  exact congrArg _ (Entries.map_eq_map_keys hdistinct
    (fun key n => quoted key ++ form.colon ++ chars form (level + 1) n) .null)

end Polydoc
