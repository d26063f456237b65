/-
  Proofs/Node/Layers.lean --- documents that are the same value: nothing but indirect layers sets
  them apart.

  A layer only says that an optional field holds something.  Two nodes that are the same value have
  the same kind and parts that are the same values, so a path leads in both to nodes that are the
  same value, or is stopped in both at the same element; and they have the same JSON text.
-/
import Polydoc.Json.Writer
import Polydoc.Proofs.Navigation.Congruence

set_option autoImplicit false

namespace Polydoc

namespace Node

open Navigation

mutual

/-- The node without the indirect layers in it, at any depth. -/
def unwrapped : Node → Node
  | .null => .null
  | .scalar s => .scalar s
  | .sequence items => .sequence (unwrappedItems items)
  | .mapping entries => .mapping (unwrappedEntries entries)
  | .record type fields => .record type (unwrappedEntries fields)
  | .indirect n => n.unwrapped

/-- Items without the indirect layers in them. -/
def unwrappedItems : List Node → List Node
  | [] => []
  | n :: rest => n.unwrapped :: unwrappedItems rest

/-- Entries without the indirect layers in their values. -/
def unwrappedEntries : List (String × Node) → List (String × Node)
  | [] => []
  | (key, n) :: rest => (key, n.unwrapped) :: unwrappedEntries rest

end

/-- Two nodes are the same value: they are equal once the indirect layers in them are gone. -/
def SameValue (m n : Node) : Prop := m.unwrapped = n.unwrapped

/-- Items that are the same values, one by one. -/
def SameItems (xs ys : List Node) : Prop := unwrappedItems xs = unwrappedItems ys

/-- Entries with the same keys, in the same order, and values that are the same. -/
def SameEntries (xs ys : List (String × Node)) : Prop := unwrappedEntries xs = unwrappedEntries ys

/-- Results that a view makes equal are two values that look the same, or the same error. -/
theorem map_eq_map_cases {α β ε : Type} {view : α → β} {x y : Except ε α}
    (h : x.map view = y.map view) :
    (∃ a b, x = .ok a ∧ y = .ok b ∧ view a = view b) ∨ ∃ e, x = .error e ∧ y = .error e := by
  cases x with
  | error e =>
    cases y with
    | error e' =>
      cases h
      exact .inr ⟨e, rfl, rfl⟩
    | ok b => cases h
  | ok a =>
    cases y with
    | error e => cases h
    | ok b => exact .inl ⟨a, b, rfl, rfl, Except.ok.inj h⟩

/-- Results that are related are both missing, or both there. -/
theorem rel_cases {α : Type} {r : α → α → Prop} {x y : Option α} (h : Option.Rel r x y) :
    (x = none ∧ y = none) ∨ ∃ a b, x = some a ∧ y = some b ∧ r a b := by
  cases h with
  | none => exact .inl ⟨rfl, rfl⟩
  | some hab => exact .inr ⟨_, _, rfl, rfl, hab⟩

/-! ## Below the layers -/

/-- Nodes without a layer around them that are the same value: both are of one kind, and their parts
are the same values. -/
inductive SameCore : Node → Node → Prop where
  | null : SameCore .null .null
  | scalar (s : Scalar) : SameCore (.scalar s) (.scalar s)
  | sequence {xs ys : List Node} (items : SameItems xs ys) : SameCore (.sequence xs) (.sequence ys)
  | mapping {xs ys : List (String × Node)} (entries : SameEntries xs ys) :
      SameCore (.mapping xs) (.mapping ys)
  | record (type : RecordType) {xs ys : List (String × Node)} (fields : SameEntries xs ys) :
      SameCore (.record type xs) (.record type ys)

/-- The first node, without a layer around it, is the second one once the layers in it are gone. -/
inductive Opens : Node → Node → Prop where
  | null : Opens .null .null
  | scalar (s : Scalar) : Opens (.scalar s) (.scalar s)
  | sequence {xs ys : List Node} (items : unwrappedItems xs = ys) :
      Opens (.sequence xs) (.sequence ys)
  | mapping {xs ys : List (String × Node)} (entries : unwrappedEntries xs = ys) :
      Opens (.mapping xs) (.mapping ys)
  | record (type : RecordType) {xs ys : List (String × Node)}
      (fields : unwrappedEntries xs = ys) : Opens (.record type xs) (.record type ys)

theorem opens_core (n : Node) : Opens n.core n.unwrapped := by
  induction n using Node.core.induct with
  | case1 inner ih => exact ih
  | case2 n h =>
    cases n with
    | null => exact .null
    | scalar s => exact .scalar s
    | sequence items => exact .sequence rfl
    | mapping entries => exact .mapping rfl
    | record type fields => exact .record type rfl
    | indirect inner => exact absurd rfl (h inner)

section Core

variable {m n c d : Node}

theorem SameValue.core (h : m.SameValue n) : SameCore m.core n.core := by
  have hm : Opens m.core n.unwrapped := h ▸ opens_core m
  have hn : Opens n.core n.unwrapped := opens_core n
  generalize m.core = c at hm ⊢
  generalize n.core = d at hn ⊢
  generalize n.unwrapped = u at hm hn
  cases hm with
  | null =>
    cases hn
    exact .null
  | scalar s =>
    cases hn
    exact .scalar s
  | sequence hx =>
    cases hn with
    | sequence hy => exact .sequence (hx.trans hy.symm)
  | mapping hx =>
    cases hn with
    | mapping hy => exact .mapping (hx.trans hy.symm)
  | record type hx =>
    cases hn with
    | record _ hy => exact .record type (hx.trans hy.symm)

theorem SameCore.sameValue (h : SameCore c d) : c.SameValue d := by
  cases h with
  | null => rfl
  | scalar s => rfl
  | sequence items => exact congrArg Node.sequence items
  | mapping entries => exact congrArg Node.mapping entries
  | record type fields => exact congrArg (Node.record type) fields

theorem unwrapped_withCore (n c : Node) : (n.withCore c).unwrapped = c.unwrapped := by
  induction n using Node.core.induct with
  | case1 inner ih => exact ih
  | case2 n h =>
    cases n with
    | indirect inner => exact absurd rfl (h inner)
    | _ => rfl

/-- Below whatever layers, the same value can be put. -/
theorem SameCore.withCore (h : SameCore c d) (m n : Node) :
    (m.withCore c).SameValue (n.withCore d) := by
  unfold SameValue
  rw [unwrapped_withCore, unwrapped_withCore]
  exact h.sameValue

/-! The two nodes are of one kind -/

theorem SameCore.symm (h : SameCore c d) : SameCore d c := by
  cases h with
  | null => exact .null
  | scalar s => exact .scalar s
  | sequence items => exact .sequence (Eq.symm items)
  | mapping entries => exact .mapping (Eq.symm entries)
  | record type fields => exact .record type (Eq.symm fields)

theorem SameCore.sequence_of_eq {xs : List Node} (h : SameCore c d) (hc : c = .sequence xs) :
    ∃ ys, d = .sequence ys ∧ SameItems xs ys := by
  cases h with
  | sequence items =>
    cases hc
    exact ⟨_, rfl, items⟩
  | _ => cases hc

theorem SameCore.mapping_of_eq {xs : List (String × Node)} (h : SameCore c d)
    (hc : c = .mapping xs) : ∃ ys, d = .mapping ys ∧ SameEntries xs ys := by
  cases h with
  | mapping entries =>
    cases hc
    exact ⟨_, rfl, entries⟩
  | _ => cases hc

theorem SameCore.record_of_eq {type : RecordType} {xs : List (String × Node)} (h : SameCore c d)
    (hc : c = .record type xs) : ∃ ys, d = .record type ys ∧ SameEntries xs ys := by
  cases h with
  | record _ fields =>
    cases hc
    exact ⟨_, rfl, fields⟩
  | _ => cases hc

/-! Questions that look through layers -/

theorem SameValue.isNull_eq (h : m.SameValue n) : m.isNull = n.isNull := by
  have hcore := h.core
  unfold isNull
  generalize m.core = c at hcore ⊢
  generalize n.core = d at hcore ⊢
  cases hcore <;> rfl

theorem SameValue.scalar?_eq (h : m.SameValue n) : m.scalar? = n.scalar? := by
  have hcore := h.core
  unfold scalar?
  generalize m.core = c at hcore ⊢
  generalize n.core = d at hcore ⊢
  cases hcore <;> rfl

theorem SameValue.kindName_eq (h : m.SameValue n) : m.kindName = n.kindName := by
  have hcore := h.core
  unfold kindName
  generalize m.core = c at hcore ⊢
  generalize n.core = d at hcore ⊢
  cases hcore <;> rfl

end Core

/-! ## Entries -/

section Entries

variable {xs ys : List (String × Node)}

theorem get?_unwrappedEntries (key : String) (entries : List (String × Node)) :
    Entries.get? key (unwrappedEntries entries) = (Entries.get? key entries).map unwrapped := by
  induction entries with
  | nil => rfl
  | cons e rest ih =>
    obtain ⟨k, n⟩ := e
    by_cases hk : k = key
    · simp [unwrappedEntries, Entries.get?, hk]
    · simp [unwrappedEntries, Entries.get?, hk, ih]

theorem unwrappedEntries_put (key : String) (n : Node) (entries : List (String × Node)) :
    unwrappedEntries (Entries.put key n entries) =
      Entries.put key n.unwrapped (unwrappedEntries entries) := by
  induction entries with
  | nil => rfl
  | cons e rest ih =>
    obtain ⟨k, m⟩ := e
    by_cases hk : k = key
    · simp [unwrappedEntries, Entries.put, hk]
    · simp [unwrappedEntries, Entries.put, hk, ih]

theorem keys_unwrappedEntries (entries : List (String × Node)) :
    Entries.keys (unwrappedEntries entries) = Entries.keys entries := by
  induction entries with
  | nil => rfl
  | cons e rest ih =>
    obtain ⟨k, n⟩ := e
    exact congrArg (k :: ·) ih

/-- Under a key, both have values that are the same, or neither has one. -/
theorem SameEntries.get? (h : SameEntries xs ys) (key : String) :
    Option.Rel SameValue (Entries.get? key xs) (Entries.get? key ys) := by
  have hget : (Entries.get? key xs).map unwrapped = (Entries.get? key ys).map unwrapped := by
    rw [← get?_unwrappedEntries, ← get?_unwrappedEntries, h]
  cases hx : Entries.get? key xs with
  | none =>
    cases hy : Entries.get? key ys with
    | none => exact .none
    | some n =>
      rw [hx, hy] at hget
      cases hget
  | some m =>
    cases hy : Entries.get? key ys with
    | none =>
      rw [hx, hy] at hget
      cases hget
    | some n =>
      rw [hx, hy] at hget
      exact .some (Option.some.inj hget)

theorem SameEntries.put (h : SameEntries xs ys) (key : String) {m n : Node} (hn : m.SameValue n) :
    SameEntries (Entries.put key m xs) (Entries.put key n ys) := by
  unfold SameEntries
  rw [unwrappedEntries_put, unwrappedEntries_put, h, hn]

theorem SameEntries.keys_eq (h : SameEntries xs ys) : Entries.keys xs = Entries.keys ys := by
  rw [← keys_unwrappedEntries xs, ← keys_unwrappedEntries ys, h]

theorem SameEntries.find? (h : SameEntries xs ys) (name : String) :
    Option.Rel SameValue (Entries.find? name xs) (Entries.find? name ys) := by
  unfold Entries.find?
  rw [Entries.resolve?_congr h.keys_eq]
  cases Entries.resolve? name ys with
  | none => exact .none
  | some key => exact h.get? key

end Entries

/-! ## Paths -/

section Paths

variable {m n : Node}

/-- A name enters nodes that are the same value, or is stopped in both by the same obstacle. -/
theorem SameValue.enter (h : m.SameValue n) (text : String) :
    SameResult SameValue (m.enter text) (n.enter text) := by
  have hcore := h.core
  unfold Node.enter
  generalize m.core = c at hcore ⊢
  generalize n.core = d at hcore ⊢
  cases hcore with
  | null => exact .error _
  | scalar s => exact .error _
  | sequence items => exact .error _
  | mapping entries =>
    dsimp only
    rcases rel_cases (entries.get? text) with ⟨hx, hy⟩ | ⟨a, b, hx, hy, hsame⟩
    · rw [hx, hy]
      exact .error _
    · rw [hx, hy]
      exact .ok hsame
  | record type fields =>
    dsimp only
    rcases rel_cases (fields.find? text) with ⟨hx, hy⟩ | ⟨a, b, hx, hy, hsame⟩
    · rw [hx, hy]
      exact .error _
    · rw [hx, hy]
      exact .ok hsame

theorem SameValue.setMember (h : m.SameValue n) (text : String) {c d : Node}
    (hc : c.SameValue d) : (m.setMember text c).SameValue (n.setMember text d) := by
  have hcore := h.core
  unfold Node.setMember
  refine SameCore.withCore ?_ m n
  generalize m.core = x at hcore ⊢
  generalize n.core = y at hcore ⊢
  cases hcore with
  | null => exact .null
  | scalar s => exact .scalar s
  | sequence items => exact .sequence items
  | mapping entries =>
    dsimp only
    rw [Entries.isSome_get?_congr entries.keys_eq]
    split
    · exact .mapping (entries.put text hc)
    · exact .mapping entries
  | record type fields =>
    dsimp only
    rw [Entries.resolve?_congr fields.keys_eq]
    split
    · exact .record type (fields.put _ hc)
    · exact .record type fields

theorem congruence_sameValue : Congruence SameValue :=
  ⟨SameValue.enter, fun h hc text => h.setMember text hc⟩

/-- A path leads in both to nodes that are the same value, or fails in both with the same error. -/
theorem SameValue.at? (h : m.SameValue n) (p : Path) :
    (m.at? p).map unwrapped = (n.at? p).map unwrapped :=
  (congruence_sameValue.at? h p).map_eq fun _ _ hsame => hsame

end Paths

end Node

/-! ## The same text -/

namespace Json

open Node

mutual

theorem chars_unwrapped (form : Form) : (n : Node) → (level : Nat) →
    chars form level n.unwrapped = chars form level n
  | .null, _ => rfl
  | .scalar _, _ => rfl
  | .sequence items, level => by rw [unwrapped, chars, chars, itemChars_unwrapped form items]
  | .mapping entries, level => by rw [unwrapped, chars, chars, memberChars_unwrapped form entries]
  | .record _ fields, level => by rw [unwrapped, chars, chars, memberChars_unwrapped form fields]
  | .indirect n, level => by rw [unwrapped, chars, chars_unwrapped form n]

theorem itemChars_unwrapped (form : Form) : (items : List Node) → (level : Nat) →
    itemChars form level (unwrappedItems items) = itemChars form level items
  | [], _ => rfl
  | n :: rest, level => by
    rw [unwrappedItems, itemChars, itemChars, chars_unwrapped form n,
      itemChars_unwrapped form rest]

theorem memberChars_unwrapped (form : Form) : (entries : List (String × Node)) → (level : Nat) →
    memberChars form level (unwrappedEntries entries) = memberChars form level entries
  | [], _ => rfl
  | (key, n) :: rest, level => by
    rw [unwrappedEntries, memberChars, memberChars, chars_unwrapped form n,
      memberChars_unwrapped form rest]

end

/-- Documents that are the same value have the same text. -/
theorem write_eq_of_sameValue {m n : Node} (h : m.SameValue n) (form : Form) :
    write form m = write form n := by
  rw [write, write, ← chars_unwrapped form m, ← chars_unwrapped form n, h]

end Json

end Polydoc
