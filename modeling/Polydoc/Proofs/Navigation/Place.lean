/-
  Proofs/Navigation/Place.lean --- the places of a document, and what a step into one of them reads
  and writes.

  Differently written paths lead to the same place: a record is entered in any letter case, and a
  `.` leads nowhere.  So a place is told by the stored keys on the way to it.
-/
import Polydoc.Navigation
import Polydoc.Proofs.Entries

set_option autoImplicit false

namespace Polydoc.Node

open Navigation

/-! ## Below the indirect layers -/

/-- Whether a node is not an indirect layer itself. -/
def Bare (n : Node) : Prop := n.core = n

theorem bare_mapping (entries : List (String × Node)) : Bare (.mapping entries) := rfl

theorem bare_record (type : RecordType) (fields : List (String × Node)) :
    Bare (.record type fields) := rfl

@[simp] theorem withCore_core (n : Node) : n.withCore n.core = n := by
  induction n using Node.core.induct with
  | case1 inner ih => simpa [withCore] using ih
  | case2 n h => cases n <;> simp_all [core, withCore]

theorem withCore_of_bare {c : Node} (hc : Bare c) (d : Node) : c.withCore d = d := by
  cases c with
  | indirect inner =>
    -- the core of a layer is smaller than the layer
    have hle := sizeOf_core_le inner
    have heq : inner.core = .indirect inner := hc
    rw [heq, Node.indirect.sizeOf_spec] at hle
    omega
  | _ => rfl

theorem core_withCore (n : Node) {c : Node} (hc : Bare c) : (n.withCore c).core = c := by
  induction n using Node.core.induct with
  | case1 inner ih => simpa [withCore] using ih
  | case2 n h => cases n <;> simp_all [withCore, Bare]

theorem withCore_withCore (n : Node) {c : Node} (hc : Bare c) (d : Node) :
    (n.withCore c).withCore d = n.withCore d := by
  induction n using Node.core.induct with
  | case1 inner ih => simpa [withCore] using ih
  | case2 n h =>
    have hcd := withCore_of_bare hc d
    cases n <;> simp_all [withCore]

/-! ## Members -/

/-- The members of a mapping or of a record, under their stored keys. -/
def members? (n : Node) : Option (List (String × Node)) :=
  match n.core with
  | .mapping entries => some entries
  | .record _ fields => some fields
  | _ => none

/-- The node with other members; a record keeps its type, and the indirect layers stay. -/
def withMembers (n : Node) (members : List (String × Node)) : Node :=
  match n.core with
  | .mapping _ => n.withCore (.mapping members)
  | .record type _ => n.withCore (.record type members)
  | _ => n

/-- The stored key that a name leads to. -/
def key? (n : Node) (name : String) : Option String :=
  match n.core with
  | .mapping entries => if (Entries.get? name entries).isSome then some name else none
  | .record _ fields => Entries.resolve? name fields
  | _ => none

/-- Why a name that leads nowhere does not. -/
def obstacle (n : Node) : Obstacle :=
  match n.core with
  | .null => .nilValue
  | .mapping _ => .keyNotFound
  | .record _ _ => .fieldNotFound
  | _ => .notContainer

section Members

variable {n : Node} {members : List (String × Node)}

theorem members?_withMembers (h : n.members? = some members) (others : List (String × Node)) :
    (n.withMembers others).members? = some others := by
  unfold members? at h
  unfold withMembers members?
  cases hn : n.core with
  | mapping entries => rw [core_withCore n (bare_mapping others)]
  | record type fields => rw [core_withCore n (bare_record type others)]
  | _ =>
    rw [hn] at h
    cases h

theorem withMembers_self (h : n.members? = some members) : n.withMembers members = n := by
  have hself := withCore_core n
  unfold members? at h
  unfold withMembers
  cases hn : n.core with
  | mapping entries =>
    rw [hn] at h hself
    cases h
    exact hself
  | record type fields =>
    rw [hn] at h hself
    cases h
    exact hself
  | _ => rfl

theorem withMembers_withMembers (n : Node) (members others : List (String × Node)) :
    (n.withMembers members).withMembers others = n.withMembers others := by
  unfold withMembers
  cases hn : n.core with
  | mapping entries =>
    simp only [core_withCore n (bare_mapping members), withCore_withCore n (bare_mapping members)]
  | record type fields =>
    simp only [core_withCore n (bare_record type members),
      withCore_withCore n (bare_record type members)]
  | _ => simp only [hn]

/-- Which key a name leads to depends on the keys, and on whether there is a type, alone. -/
theorem key?_withMembers (h : n.members? = some members) {others : List (String × Node)}
    (hkeys : Entries.keys others = Entries.keys members) (name : String) :
    (n.withMembers others).key? name = n.key? name := by
  unfold members? at h
  unfold withMembers key?
  cases hn : n.core with
  | mapping entries =>
    rw [hn] at h
    cases h
    simp only [core_withCore n (bare_mapping others), Entries.isSome_get?_congr hkeys]
  | record type fields =>
    rw [hn] at h
    cases h
    simp only [core_withCore n (bare_record type others), Entries.resolve?_congr hkeys]
  | _ =>
    rw [hn] at h
    cases h

theorem obstacle_withMembers (n : Node) (members : List (String × Node)) :
    (n.withMembers members).obstacle = n.obstacle := by
  unfold withMembers obstacle
  cases hn : n.core with
  | mapping entries => rw [core_withCore n (bare_mapping members)]
  | record type fields => rw [core_withCore n (bare_record type members)]
  | _ => simp only [hn]

/-- The key that a name leads to is stored. -/
theorem key?_mem {name key : String} (h : n.key? name = some key) :
    ∃ members child, n.members? = some members ∧ Entries.get? key members = some child := by
  unfold key? at h
  unfold members?
  cases hn : n.core with
  | mapping entries =>
    rw [hn] at h
    dsimp only at h
    split at h
    · rename_i hs
      cases h
      obtain ⟨child, hchild⟩ := Option.isSome_iff_exists.mp hs
      exact ⟨entries, child, rfl, hchild⟩
    · cases h
  | record type fields =>
    rw [hn] at h
    have hmem : key ∈ Entries.keys fields := Entries.mem_keys_of_resolve? h
    obtain ⟨child, hchild⟩ := Entries.exists_get?_of_mem hmem
    exact ⟨fields, child, rfl, hchild⟩
  | _ =>
    rw [hn] at h
    cases h

end Members

/-! ## One stored value -/

/-- The value stored under exactly that key. -/
def stored? (n : Node) (key : String) : Option Node :=
  n.members?.bind (Entries.get? key)

/-- The node with the value under a stored key replaced. -/
def store (n : Node) (key : String) (child : Node) : Node :=
  match n.members? with
  | some members => n.withMembers (Entries.put key child members)
  | none => n

/-! A record is entered by its fields' names in any letter case. -/

theorem key?_record (type : RecordType) (fields : List (String × Node)) (name : String) :
    (Node.record type fields).key? name = Entries.resolve? name fields := rfl

theorem stored?_record (type : RecordType) (fields : List (String × Node)) (key : String) :
    (Node.record type fields).stored? key = Entries.get? key fields := rfl

section Stored

variable {n child : Node} {name key : String}

theorem stored?_of_key? (h : n.key? name = some key) : ∃ child, n.stored? key = some child := by
  obtain ⟨members, child, hmembers, hchild⟩ := key?_mem h
  exact ⟨child, by rw [stored?, hmembers]; exact hchild⟩

/-- A name is entered at the stored key that it leads to. -/
theorem enter_of_key? (hk : n.key? name = some key) (hs : n.stored? key = some child) :
    n.enter name = .ok child := by
  unfold key? at hk
  unfold stored? members? at hs
  unfold enter
  cases hn : n.core with
  | mapping entries =>
    simp only [hn, Option.bind_some] at hk hs
    split at hk <;> cases hk
    simp only [hs]
  | record type fields =>
    simp only [hn, Option.bind_some] at hk hs
    simp only [Entries.find?, hk, Option.bind_some, hs]
  | _ =>
    rw [hn] at hk
    cases hk

theorem enter_of_key?_none (h : n.key? name = none) : n.enter name = .error n.obstacle := by
  unfold key? at h
  unfold enter obstacle
  cases hn : n.core with
  | mapping entries =>
    simp only [hn] at h
    split at h
    · cases h
    · rename_i hs
      simp only [Option.not_isSome_iff_eq_none.mp hs]
  | record type fields =>
    simp only [hn] at h
    simp only [Entries.find?, h, Option.bind_none]
  | _ => rfl

/-- A name leads to a stored key, where it is entered, or it leads nowhere. -/
theorem enter_cases (n : Node) (name : String) :
    (∃ key child, n.key? name = some key ∧ n.stored? key = some child ∧
        n.enter name = .ok child) ∨
      (n.key? name = none ∧ n.enter name = .error n.obstacle) := by
  cases hk : n.key? name with
  | none => exact .inr ⟨rfl, enter_of_key?_none hk⟩
  | some key =>
    obtain ⟨child, hs⟩ := stored?_of_key? hk
    exact .inl ⟨key, child, rfl, hs, enter_of_key? hk hs⟩

/-- Replacing the member that a name leads to replaces the value under its stored key. -/
theorem setMember_of_key? (h : n.key? name = some key) (value : Node) :
    n.setMember name value = n.store key value := by
  unfold key? at h
  unfold setMember store members? withMembers
  cases hn : n.core with
  | mapping entries =>
    simp only [hn] at h
    split at h <;> rename_i hs <;> cases h
    simp only [hs, if_true]
  | record type fields =>
    simp only [hn] at h
    simp only [h]
  | _ =>
    rw [hn] at h
    cases h

theorem store_eq (hs : n.stored? key = some child) :
    ∃ members, n.members? = some members ∧ Entries.get? key members = some child ∧
      ∀ value, n.store key value = n.withMembers (Entries.put key value members) := by
  unfold stored? at hs
  obtain ⟨members, hmembers, hget⟩ := Option.bind_eq_some_iff.mp hs
  refine ⟨members, hmembers, hget, fun value => ?_⟩
  unfold store
  simp only [hmembers]

theorem stored?_store (hs : n.stored? key = some child) (value : Node) (k : String) :
    (n.store key value).stored? k = if key = k then some value else n.stored? k := by
  obtain ⟨members, hmembers, _, hstore⟩ := store_eq hs
  rw [hstore, stored?, stored?, members?_withMembers hmembers, hmembers]
  exact Entries.get?_put key k value members

theorem stored?_store_self (hs : n.stored? key = some child) (value : Node) :
    (n.store key value).stored? key = some value := by
  rw [stored?_store hs, if_pos rfl]

/-- A name leads to the same key as before. -/
theorem key?_store (hs : n.stored? key = some child) (value : Node) (name : String) :
    (n.store key value).key? name = n.key? name := by
  obtain ⟨members, hmembers, hget, hstore⟩ := store_eq hs
  rw [hstore]
  exact key?_withMembers hmembers
    (Entries.keys_put_of_mem (Entries.mem_keys_of_get? hget) value) name

theorem obstacle_store (hs : n.stored? key = some child) (value : Node) :
    (n.store key value).obstacle = n.obstacle := by
  obtain ⟨members, _, _, hstore⟩ := store_eq hs
  rw [hstore, obstacle_withMembers]

/-- Storing what is there already changes nothing. -/
theorem store_stored (hs : n.stored? key = some child) : n.store key child = n := by
  obtain ⟨members, hmembers, hget, hstore⟩ := store_eq hs
  rw [hstore, Entries.put_of_get? hget, withMembers_self hmembers]

/-- The later of two values stored under a key is kept. -/
theorem store_store (hs : n.stored? key = some child) (value later : Node) :
    (n.store key value).store key later = n.store key later := by
  obtain ⟨members, hmembers, _, hstore⟩ := store_eq hs
  rw [hstore, hstore, store, members?_withMembers hmembers]
  simp only [withMembers_withMembers, Entries.put_put]

end Stored

/-- Two nodes that are entered by the same names and hold the same values but under `key`. -/
structure SameBut (key : String) (n m : Node) : Prop where
  names : ∀ name, m.key? name = n.key? name
  values : ∀ k, k ≠ key → m.stored? k = n.stored? k
  refusal : m.obstacle = n.obstacle

theorem sameBut_store {n child : Node} {key : String} (hs : n.stored? key = some child)
    (value : Node) : SameBut key n (n.store key value) where
  names := key?_store hs value
  values k hk := by rw [stored?_store hs, if_neg (Ne.symm hk)]
  refusal := obstacle_store hs value

/-- A name leads to the values under `key`, to one and the same value, or nowhere in both. -/
theorem SameBut.enter_cases {n m child child' : Node} {key : String} (h : SameBut key n m)
    (hs : n.stored? key = some child) (hs' : m.stored? key = some child') (name : String) :
    (n.key? name = some key ∧ n.enter name = .ok child ∧ m.enter name = .ok child') ∨
      (∃ k found, k ≠ key ∧ n.key? name = some k ∧ n.enter name = .ok found ∧
        m.enter name = .ok found) ∨
      n.key? name = none ∧ n.enter name = .error n.obstacle ∧
        m.enter name = .error n.obstacle := by
  have hname := h.names name
  rcases Node.enter_cases n name with ⟨k, found, hk, hfound, he⟩ | ⟨hk, he⟩
  · rw [hk] at hname
    by_cases hkey : k = key
    · subst hkey
      rw [hs] at hfound
      cases hfound
      exact .inl ⟨hk, he, enter_of_key? hname hs'⟩
    · have hsame : m.stored? k = some found := by rw [h.values k hkey, hfound]
      exact .inr (.inl ⟨k, found, hkey, hk, he, enter_of_key? hname hsame⟩)
  · rw [hk] at hname
    rw [← h.refusal]
    exact .inr (.inr ⟨hk, h.refusal ▸ he, enter_of_key?_none hname⟩)

/-- What is left of a node when its members are blanked: its indirect layers, its type if it is a
record, and its keys in their order. -/
def outline (n : Node) : Node :=
  match n.members? with
  | some members => n.withMembers ((Entries.keys members).map fun key => (key, .null))
  | none => n

theorem outline_store {n child : Node} {key : String} (hs : n.stored? key = some child)
    (value : Node) : (n.store key value).outline = n.outline := by
  obtain ⟨members, hmembers, hget, hstore⟩ := store_eq hs
  have hkeys := Entries.keys_put_of_mem (Entries.mem_keys_of_get? hget) value
  rw [hstore, outline, outline, members?_withMembers hmembers, hmembers]
  simp only [withMembers_withMembers, hkeys]

/-! ## Places -/

/-- The place where a walk along the elements ends or stops: the stored keys that it enters. -/
def place (n : Node) : List Element → List String
  | [] => []
  | .self :: rest => n.place rest
  | .name text :: rest =>
    match n.key? text, n.enter text with
    | some key, .ok child => key :: child.place rest
    | _, _ => []
  | .parent :: _ => []
  | .root :: _ => []

section Steps

variable {n child : Node} {name key : String}

theorem place_name (hk : n.key? name = some key) (he : n.enter name = .ok child)
    (rest : List Element) : n.place (.name name :: rest) = key :: child.place rest := by
  rw [place, hk, he]

theorem walk_name (he : n.enter name = .ok child) (index : Nat) (rest : List Element) :
    n.walk index (.name name :: rest) = child.walk (index + 1) rest := by
  rw [walk, he]

theorem walk_name_error {o : Obstacle} (he : n.enter name = .error o) (index : Nat)
    (rest : List Element) :
    n.walk index (.name name :: rest) = .error ⟨index, .name name, o⟩ := by
  rw [walk, he]

theorem overwrite_name (hk : n.key? name = some key) (he : n.enter name = .ok child)
    (value : Node) (index : Nat) (rest : List Element) :
    n.overwrite value index (.name name :: rest) =
      (child.overwrite value (index + 1) rest).map (n.store key) := by
  rw [overwrite, he, funext (setMember_of_key? hk)]

theorem overwrite_name_error {o : Obstacle} (he : n.enter name = .error o) (value : Node)
    (index : Nat) (rest : List Element) :
    n.overwrite value index (.name name :: rest) = .error ⟨index, .name name, o⟩ := by
  rw [overwrite, he]

end Steps

/-- The node at a place. -/
def follow? (n : Node) : List String → Option Node
  | [] => some n
  | key :: rest => (n.stored? key).bind fun child => child.follow? rest

/-- A walk finds the node at its place, however the place is written. -/
theorem follow?_place {found : Node} {es : List Element} :
    ∀ {n : Node} {index : Nat}, n.walk index es = .ok found →
      n.follow? (n.place es) = some found := by
  induction es with
  | nil =>
    intro n index h
    cases h
    rfl
  | cons e rest ih =>
    intro n index h
    cases e with
    | self => exact ih h
    | name text =>
      rcases enter_cases n text with ⟨key, child, hk, hs, he⟩ | ⟨_, he⟩
      · rw [walk_name he] at h
        rw [place_name hk he, follow?, hs]
        exact ih h
      · rw [walk_name_error he] at h
        cases h
    | parent => cases h
    | root => cases h

end Polydoc.Node
