/-
  Proofs/Node/Unwrapping.lean --- taking the indirect layers out of documents keeps what is equal
  equal.

  Layers count in the comparison of documents.  So equal documents have them in the same places, and
  what is left without them is equal again; but documents of which only one has layers are not equal
  although they may be the same value.
-/
import Polydoc.Proofs.Node.Layers
import Polydoc.Proofs.Node.Reordered

set_option autoImplicit false

namespace Polydoc

namespace Node

/-- No indirect layer stands in a document. -/
def LayerFree (n : Node) : Prop := ∀ inner, ¬ Part (.indirect inner) n

section LayerFree

variable {m n : Node} {items : List Node} {entries held : List (String × Node)} {type : RecordType}

theorem LayerFree.part (h : LayerFree n) (hp : Part m n) : LayerFree m :=
  fun inner hi => h inner (hi.trans hp)

theorem LayerFree.not_indirect {inner : Node} (h : LayerFree (.indirect inner)) : False :=
  h inner .here

theorem layerFree_sequence (h : ∀ n ∈ items, LayerFree n) : LayerFree (.sequence items) := by
  intro layer hp
  cases hp with
  | item mem inner => exact h _ mem layer inner

theorem layerFree_mapping (h : ∀ e ∈ entries, LayerFree e.2) : LayerFree (.mapping entries) := by
  intro layer hp
  cases hp with
  | entry mem inner => exact h _ mem layer inner

theorem layerFree_record (h : ∀ e ∈ held, LayerFree e.2) : LayerFree (.record type held) := by
  intro layer hp
  cases hp with
  | field mem inner => exact h _ mem layer inner

end LayerFree

mutual

/-- Without layers there is nothing to take out. -/
theorem LayerFree.unwrapped_eq : (n : Node) → LayerFree n → n.unwrapped = n
  | .null, _ => rfl
  | .scalar _, _ => rfl
  | .sequence items, h =>
    congrArg Node.sequence (LayerFree.unwrappedItems_eq items fun _ hn => h.part (.item hn .here))
  | .mapping entries, h =>
    congrArg Node.mapping
      (LayerFree.unwrappedEntries_eq entries fun _ he => h.part (.entry he .here))
  | .record type held, h =>
    congrArg (Node.record type)
      (LayerFree.unwrappedEntries_eq held fun _ he => h.part (.field he .here))
  | .indirect _, h => h.not_indirect.elim

theorem LayerFree.unwrappedItems_eq : (items : List Node) → (∀ n ∈ items, LayerFree n) →
    unwrappedItems items = items
  | [], _ => rfl
  | n :: rest, h => by
    rw [unwrappedItems, LayerFree.unwrapped_eq n (h n List.mem_cons_self),
      LayerFree.unwrappedItems_eq rest fun m hm => h m (List.mem_cons_of_mem _ hm)]

theorem LayerFree.unwrappedEntries_eq : (entries : List (String × Node)) →
    (∀ e ∈ entries, LayerFree e.2) → unwrappedEntries entries = entries
  | [], _ => rfl
  | (key, n) :: rest, h => by
    rw [unwrappedEntries, LayerFree.unwrapped_eq n (h (key, n) List.mem_cons_self),
      LayerFree.unwrappedEntries_eq rest fun e he => h e (List.mem_cons_of_mem _ he)]

end

theorem unwrapped_core (n : Node) : n.core.unwrapped = n.unwrapped := by
  induction n using Node.core.induct with
  | case1 inner ih => exact ih
  | case2 n h =>
    cases n with
    | indirect inner => exact absurd rfl (h inner)
    | _ => rfl

/-! ## Formed documents -/

theorem formed_sequence_iff {items : List Node} :
    Formed (.sequence items) ↔ ∀ n ∈ items, Formed n := by
  constructor
  · exact fun h n hn => h.part (.item hn .here)
  · intro h
    refine ⟨exact_sequence fun n hn => (h n hn).exact, fun entries hp => ?_⟩
    cases hp with
    | item mem inner => exact (h _ mem).keyed entries inner

mutual

/-- A formed document is formed without its layers. -/
theorem Formed.unwrapped : (n : Node) → Formed n → Formed n.unwrapped
  | .null, h => h
  | .scalar _, h => h
  | .sequence items, h =>
    formed_sequence_iff.mpr (Formed.unwrapped_of_mem items (formed_sequence_iff.mp h))
  | .mapping entries, h => by
    obtain ⟨hd, hvalues⟩ := formed_mapping_iff.mp h
    refine formed_mapping_iff.mpr ⟨?_, Formed.unwrapped_of_mem_entries entries hvalues⟩
    rw [Entries.Distinct, keys_unwrappedEntries]
    exact hd
  | .record type held, h => by
    obtain ⟨hkeys, hvalues⟩ := formed_record_iff.mp h
    refine formed_record_iff.mpr ⟨?_, Formed.unwrapped_of_mem_entries held hvalues⟩
    rw [keys_unwrappedEntries]
    exact hkeys
  | .indirect n, h => Formed.unwrapped n (h.part (.layer .here))

theorem Formed.unwrapped_of_mem : (items : List Node) → (∀ n ∈ items, Formed n) →
    ∀ n ∈ unwrappedItems items, Formed n
  | [], _, _, hn => nomatch hn
  | n :: rest, h, m, hm => by
    rcases List.mem_cons.mp hm with rfl | hrest
    · exact Formed.unwrapped n (h n List.mem_cons_self)
    · exact Formed.unwrapped_of_mem rest (fun m hm => h m (List.mem_cons_of_mem _ hm)) m hrest

theorem Formed.unwrapped_of_mem_entries : (entries : List (String × Node)) →
    (∀ e ∈ entries, Formed e.2) → ∀ e ∈ unwrappedEntries entries, Formed e.2
  | [], _, _, he => nomatch he
  | (key, n) :: rest, h, e, he => by
    rcases List.mem_cons.mp he with rfl | hrest
    · exact Formed.unwrapped n (h (key, n) List.mem_cons_self)
    · exact Formed.unwrapped_of_mem_entries rest (fun e he => h e (List.mem_cons_of_mem _ he)) e
        hrest

end

/-! ## Equal documents -/

theorem getElem?_unwrappedItems (items : List Node) (i : Nat) :
    (unwrappedItems items)[i]? = items[i]?.map unwrapped := by
  induction items generalizing i with
  | nil => rfl
  | cons n rest ih =>
    cases i with
    | zero => rfl
    | succ i => exact ih i

theorem length_unwrappedItems (items : List Node) :
    (unwrappedItems items).length = items.length := by
  induction items with
  | nil => rfl
  | cons n rest ih => exact congrArg (· + 1) ih

section Reordered

variable {m n : Node} {xs ys : List (String × Node)}

theorem values_unwrappedEntries
    (h : ∀ key m n, Entries.get? key xs = some m → Entries.get? key ys = some n →
      Reordered m.unwrapped n.unwrapped) (key : String) (m n : Node)
    (hm : Entries.get? key (unwrappedEntries xs) = some m)
    (hn : Entries.get? key (unwrappedEntries ys) = some n) : Reordered m n := by
  rw [get?_unwrappedEntries, Option.map_eq_some_iff] at hm hn
  obtain ⟨m, hm, rfl⟩ := hm
  obtain ⟨n, hn, rfl⟩ := hn
  exact h key m n hm hn

/-- Equal documents are equal without their layers. -/
theorem Reordered.unwrapped (h : Reordered m n) : Reordered m.unwrapped n.unwrapped := by
  induction h with
  | null => exact .null
  | scalar s => exact .scalar s
  | indirect _ ih => exact ih
  | @sequence xs ys length_eq _ ih =>
    refine .sequence ?_ fun i m n hm hn => ?_
    · rw [length_unwrappedItems, length_unwrappedItems, length_eq]
    · rw [getElem?_unwrappedItems, Option.map_eq_some_iff] at hm hn
      obtain ⟨m, hm, rfl⟩ := hm
      obtain ⟨n, hn, rfl⟩ := hn
      exact ih i m n hm hn
  | mapping keys _ ih =>
    refine .mapping ?_ (values_unwrappedEntries ih)
    rw [keys_unwrappedEntries, keys_unwrappedEntries]
    exact keys
  | record type keys _ ih =>
    refine .record type ?_ (values_unwrappedEntries ih)
    rw [keys_unwrappedEntries, keys_unwrappedEntries]
    exact keys

/-- A layer around a document makes it another one. -/
theorem not_reordered_indirect (n : Node) : ¬ Reordered (.indirect n) n := by
  induction n using Node.core.induct with
  | case1 inner ih =>
    intro h
    cases h with
    | indirect hinner => exact ih hinner
  | case2 n hn =>
    intro h
    cases h with
    | indirect _ => exact hn _ rfl

/-- A document that equals one without layers has none. -/
theorem Reordered.layerFree (h : Reordered m n) (hm : Formed m) (hn : LayerFree n) :
    LayerFree m := by
  induction h with
  | null => exact hn
  | scalar s => exact hn
  | indirect => exact hn.not_indirect.elim
  | @sequence xs ys length_eq _ ih =>
    refine layerFree_sequence fun m hmem => ?_
    obtain ⟨i, hi⟩ := List.mem_iff_getElem?.mp hmem
    have hlt : i < ys.length := length_eq ▸ (List.getElem?_eq_some_iff.mp hi).1
    exact ih i m ys[i] hi (List.getElem?_eq_getElem hlt) (hm.part (.item hmem .here))
      (hn.part (.item (List.getElem_mem hlt) .here))
  | @mapping xs ys keys _ ih =>
    refine layerFree_mapping fun e he => ?_
    have hget : Entries.get? e.1 xs = some e.2 :=
      Entries.get?_of_mem (formed_mapping_iff.mp hm).1 he
    obtain ⟨n, hget'⟩ := exists_get?_of_perm keys hget
    exact ih e.1 e.2 n hget hget' (hm.part (.entry he .here))
      (hn.part (.entry (Entries.mem_of_get? hget') .here))
  | @record type xs ys keys _ ih =>
    refine layerFree_record fun e he => ?_
    have hget : Entries.get? e.1 xs = some e.2 := Entries.get?_of_mem hm.distinct he
    obtain ⟨n, hget'⟩ := exists_get?_of_perm (.of_eq keys) hget
    exact ih e.1 e.2 n hget hget' (hm.part (.field he .here))
      (hn.part (.field (Entries.mem_of_get? hget') .here))

end Reordered

end Node

end Polydoc
