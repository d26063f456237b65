/-
  Entries.lean --- dictionaries that remember the order in which their keys came.

  A dictionary is a list of pairs.  The functions below keep its keys distinct: a key that is stored
  again keeps its place and takes the new value.
-/
import Polydoc.Text.Lowercase

set_option autoImplicit false

namespace Polydoc

namespace Entries

variable {κ α β : Type} [DecidableEq κ]

/-- The value stored under a key. -/
def get? (key : κ) : List (κ × α) → Option α
  | [] => none
  | (k, v) :: rest => if k = key then some v else get? key rest

/-- Stores a value: in place where the key is present, at the end where it is not. -/
def put (key : κ) (value : α) : List (κ × α) → List (κ × α)
  | [] => [(key, value)]
  | (k, v) :: rest => if k = key then (k, value) :: rest else (k, v) :: put key value rest

/-- Stores the given pairs one after another, behind what is there. -/
def putAll (entries : List (κ × α)) (new : List (κ × α)) : List (κ × α) :=
  new.foldl (fun acc e => put e.1 e.2 acc) entries

/-- The dictionary of the given pairs: each key at its first place, with its last value. -/
def ofList (pairs : List (κ × α)) : List (κ × α) :=
  putAll [] pairs

def keys (entries : List (κ × α)) : List κ :=
  entries.map Prod.fst

/-- Whether no key stands twice. -/
def Distinct (entries : List (κ × α)) : Prop :=
  (keys entries).Nodup

/-! ## The view `get?` of each operation -/

@[simp] theorem get?_nil (key : κ) : get? key ([] : List (κ × α)) = none := rfl

theorem get?_put (key key' : κ) (value : α) (entries : List (κ × α)) :
    get? key' (put key value entries) = if key = key' then some value else get? key' entries := by
  induction entries with
  | nil => simp [put, get?]
  | cons e rest ih =>
    obtain ⟨k, v⟩ := e
    by_cases hk : k = key
    · subst hk
      by_cases h : k = key' <;> simp [put, get?, h]
    · by_cases h : key = key'
      · subst h
        simp [put, get?, hk, ih]
      · by_cases h' : k = key'
        · subst h'
          simp [put, get?, hk, h]
        · simp [put, get?, hk, h, h', ih]

theorem get?_isSome_iff (key : κ) (entries : List (κ × α)) :
    (get? key entries).isSome = true ↔ key ∈ keys entries := by
  induction entries with
  | nil => simp [get?, keys]
  | cons e rest ih =>
    obtain ⟨k, v⟩ := e
    by_cases hk : k = key
    · simp [get?, keys, hk]
    · simp only [get?, hk, if_false, ih, keys, List.map_cons, List.mem_cons]
      constructor
      · exact Or.inr
      · rintro (h | h)
        · exact absurd h.symm hk
        · exact h

/-! ## The keys -/

theorem keys_put (key : κ) (value : α) (entries : List (κ × α)) :
    keys (put key value entries) =
      if key ∈ keys entries then keys entries else keys entries ++ [key] := by
  induction entries with
  | nil => simp [put, keys]
  | cons e rest ih =>
    obtain ⟨k, v⟩ := e
    by_cases hk : k = key
    · simp [put, keys, hk]
    · have hk' : key ≠ k := fun h => hk h.symm
      have hcons : keys (put key value ((k, v) :: rest)) = k :: keys (put key value rest) := by
        simp [put, keys, hk]
      have hmem : key ∈ keys ((k, v) :: rest) ↔ key ∈ keys rest := by simp [keys, hk']
      rw [hcons, ih]
      by_cases h : key ∈ keys rest
      · rw [if_pos h, if_pos (hmem.2 h)]; rfl
      · rw [if_neg h, if_neg (fun h' => h (hmem.1 h'))]; rfl

theorem distinct_put (key : κ) (value : α) {entries : List (κ × α)} (h : Distinct entries) :
    Distinct (put key value entries) := by
  unfold Distinct at *
  rw [keys_put]
  split
  · exact h
  · rename_i hn
    rw [List.nodup_append]
    refine ⟨h, by simp, ?_⟩
    intro a ha b hb
    simp only [List.mem_singleton] at hb
    subst hb
    exact fun hab => hn (hab ▸ ha)

theorem distinct_putAll {entries : List (κ × α)} (h : Distinct entries) (new : List (κ × α)) :
    Distinct (putAll entries new) := by
  induction new generalizing entries with
  | nil => exact h
  | cons e rest ih => exact ih (distinct_put e.1 e.2 h)

theorem distinct_ofList (pairs : List (κ × α)) : Distinct (ofList pairs) :=
  distinct_putAll (by simp [Distinct, keys]) pairs

/-! ## Look-up without regard to letter case -/

/-- The first key whose lower-case form is `folded`. -/
def foldedKey? (folded : String) : List (String × α) → Option String
  | [] => none
  | (k, _) :: rest => if Text.lowercase k = folded then some k else foldedKey? folded rest

/-- The stored key that a name stands for: the name itself, else the first that differs from it in
letter case alone. -/
def resolve? (name : String) (entries : List (String × α)) : Option String :=
  if (get? name entries).isSome then some name else foldedKey? (Text.lowercase name) entries

/-- The value of the key that a name stands for. -/
def find? (name : String) (entries : List (String × α)) : Option α :=
  (resolve? name entries).bind fun key => get? key entries

theorem mem_keys_of_foldedKey? {folded key : String} {entries : List (String × α)}
    (h : foldedKey? folded entries = some key) : key ∈ keys entries := by
  induction entries with
  | nil => simp [foldedKey?] at h
  | cons e rest ih =>
    obtain ⟨k, v⟩ := e
    simp only [foldedKey?] at h
    split at h
    · simp only [Option.some.injEq] at h
      simp [keys, h]
    · simpa [keys] using Or.inr (ih h)

theorem mem_keys_of_resolve? {name key : String} {entries : List (String × α)}
    (h : resolve? name entries = some key) : key ∈ keys entries := by
  unfold resolve? at h
  split at h
  · rename_i hs
    simp only [Option.some.injEq] at h
    exact h ▸ (get?_isSome_iff name entries).1 hs
  · exact mem_keys_of_foldedKey? h

/-! ## Values are smaller than their dictionary -/

theorem sizeOf_lt_of_get? [SizeOf κ] [SizeOf α] {key : κ} {value : α} {entries : List (κ × α)}
    (h : get? key entries = some value) : sizeOf value < sizeOf entries := by
  induction entries with
  | nil => simp [get?] at h
  | cons e rest ih =>
    obtain ⟨k, v⟩ := e
    simp only [get?] at h
    split at h
    · simp only [Option.some.injEq] at h
      subst h
      simp only [List.cons.sizeOf_spec, Prod.mk.sizeOf_spec]
      omega
    · have := ih h
      simp only [List.cons.sizeOf_spec]
      omega

theorem sizeOf_lt_of_find? [SizeOf α] {name : String} {value : α} {entries : List (String × α)}
    (h : find? name entries = some value) : sizeOf value < sizeOf entries := by
  unfold find? at h
  rw [Option.bind_eq_some_iff] at h
  obtain ⟨_, _, h⟩ := h
  exact sizeOf_lt_of_get? h

end Entries

end Polydoc
