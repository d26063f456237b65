/-
  Proofs/Node/Plain.lean --- documents as they are written out: without records and without indirect
  layers.

  Writing turns a record into a mapping of its fields, in their order, and an indirect node into
  what it holds.  The tree that is left has the text of the document it comes from, and writing it
  changes nothing more.
-/
import Polydoc.Json.Writer
import Polydoc.Proofs.Node.Fitting

set_option autoImplicit false

namespace Polydoc

namespace Node

mutual

/-- The tree that is written for a node: records become mappings, indirect layers go. -/
def plain : Node → Node
  | .null => .null
  | .scalar s => .scalar s
  | .sequence items => .sequence (plainItems items)
  | .mapping entries => .mapping (plainEntries entries)
  | .record _ fields => .mapping (plainEntries fields)
  | .indirect n => n.plain

/-- The trees that are written for items. -/
def plainItems : List Node → List Node
  | [] => []
  | n :: rest => n.plain :: plainItems rest

/-- The trees that are written for the values of entries, under the same keys. -/
def plainEntries : List (String × Node) → List (String × Node)
  | [] => []
  | (key, n) :: rest => (key, n.plain) :: plainEntries rest

end

/-- Neither a record nor an indirect layer stands in a document. -/
structure Plain (n : Node) : Prop where
  recordFree : RecordFree n
  layerFree : ∀ inner, ¬ Part (.indirect inner) n

/-! ## Parts of plain trees -/

theorem Plain.part {m n : Node} (h : Plain n) (hp : Part m n) : Plain m :=
  ⟨h.recordFree.part hp, fun inner hi => h.layerFree inner (hi.trans hp)⟩

theorem plain_null : Plain .null := by
  constructor
  · intro type held hp
    cases hp
  · intro inner hp
    cases hp

theorem plain_scalar (s : Scalar) : Plain (.scalar s) := by
  constructor
  · exact recordFree_scalar s
  · intro inner hp
    cases hp

theorem plain_sequence {items : List Node} (h : ∀ n ∈ items, Plain n) :
    Plain (.sequence items) := by
  constructor
  · intro type held hp
    cases hp with
    | item mem inner => exact (h _ mem).recordFree type held inner
  · intro layer hp
    cases hp with
    | item mem inner => exact (h _ mem).layerFree layer inner

theorem plain_mapping {entries : List (String × Node)} (h : ∀ e ∈ entries, Plain e.2) :
    Plain (.mapping entries) := by
  constructor
  · exact recordFree_mapping fun e he => (h e he).recordFree
  · intro layer hp
    cases hp with
    | entry mem inner => exact (h _ mem).layerFree layer inner

theorem Plain.core {n : Node} (h : Plain n) : n.core = n := by
  cases n with
  | indirect inner => exact absurd .here (h.layerFree inner)
  | _ => rfl

/-! ## Entries -/

theorem get?_plainEntries (key : String) (entries : List (String × Node)) :
    Entries.get? key (plainEntries entries) = (Entries.get? key entries).map plain := by
  induction entries with
  | nil => rfl
  | cons e rest ih =>
    obtain ⟨k, n⟩ := e
    by_cases hk : k = key
    · simp [plainEntries, Entries.get?, hk]
    · simp [plainEntries, Entries.get?, hk, ih]

theorem isNull_plain (n : Node) : n.plain.isNull = n.isNull := by
  induction n using Node.core.induct with
  | case1 inner ih => exact ih
  | case2 n h =>
    cases n with
    | indirect inner => exact absurd rfl (h inner)
    | _ => rfl

/-! ## What is written is plain -/

mutual

theorem plain_plain : (n : Node) → Plain n.plain
  | .null => plain_null
  | .scalar s => plain_scalar s
  | .sequence items => plain_sequence (plain_plainItems items)
  | .mapping entries => plain_mapping (plain_plainEntries entries)
  | .record _ fields => plain_mapping (plain_plainEntries fields)
  | .indirect n => plain_plain n

theorem plain_plainItems : (items : List Node) → ∀ n ∈ plainItems items, Plain n
  | [], _, h => nomatch h
  | n :: rest, m, h => by
    rcases List.mem_cons.mp h with rfl | hrest
    · exact plain_plain n
    · exact plain_plainItems rest m hrest

theorem plain_plainEntries : (entries : List (String × Node)) →
    ∀ e ∈ plainEntries entries, Plain e.2
  | [], _, h => nomatch h
  | (_, n) :: rest, e, h => by
    rcases List.mem_cons.mp h with rfl | hrest
    · exact plain_plain n
    · exact plain_plainEntries rest e hrest

end

mutual

/-- A plain tree is written as it is. -/
theorem Plain.plain_eq : (n : Node) → Plain n → n.plain = n
  | .null, _ => rfl
  | .scalar _, _ => rfl
  | .sequence items, h =>
    congrArg Node.sequence (Plain.plainItems_eq items fun _ hn => h.part (.item hn .here))
  | .mapping entries, h =>
    congrArg Node.mapping (Plain.plainEntries_eq entries fun _ he => h.part (.entry he .here))
  | .record type held, h => absurd .here (h.recordFree type held)
  | .indirect inner, h => absurd .here (h.layerFree inner)

theorem Plain.plainItems_eq : (items : List Node) → (∀ n ∈ items, Plain n) →
    plainItems items = items
  | [], _ => rfl
  | n :: rest, h => by
    rw [plainItems, Plain.plain_eq n (h n List.mem_cons_self),
      Plain.plainItems_eq rest fun m hm => h m (List.mem_cons_of_mem _ hm)]

theorem Plain.plainEntries_eq : (entries : List (String × Node)) → (∀ e ∈ entries, Plain e.2) →
    plainEntries entries = entries
  | [], _ => rfl
  | (key, n) :: rest, h => by
    rw [plainEntries, Plain.plain_eq n (h (key, n) List.mem_cons_self),
      Plain.plainEntries_eq rest fun e he => h e (List.mem_cons_of_mem _ he)]

end

end Node

/-! ## The same text -/

namespace Json

open Node

mutual

theorem chars_plain (form : Form) : (n : Node) → (level : Nat) →
    chars form level n.plain = chars form level n
  | .null, _ => rfl
  | .scalar _, _ => rfl
  | .sequence items, level => by rw [plain, chars, chars, itemChars_plain form items]
  | .mapping entries, level => by rw [plain, chars, chars, memberChars_plain form entries]
  | .record _ fields, level => by rw [plain, chars, chars, memberChars_plain form fields]
  | .indirect n, level => by rw [plain, chars, chars_plain form n]

theorem itemChars_plain (form : Form) : (items : List Node) → (level : Nat) →
    itemChars form level (plainItems items) = itemChars form level items
  | [], _ => rfl
  | n :: rest, level => by
    rw [plainItems, itemChars, itemChars, chars_plain form n, itemChars_plain form rest]

theorem memberChars_plain (form : Form) : (entries : List (String × Node)) → (level : Nat) →
    memberChars form level (plainEntries entries) = memberChars form level entries
  | [], _ => rfl
  | (key, n) :: rest, level => by
    rw [plainEntries, memberChars, memberChars, chars_plain form n, memberChars_plain form rest]

end

/-- A document and the plain tree of it have the same text. -/
theorem write_plain (form : Form) (n : Node) : write form n.plain = write form n := by
  rw [write, write, chars_plain]

end Json

end Polydoc
