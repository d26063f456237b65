/-
  Proofs/Entries.lean --- laws of dictionaries that are overwritten where they have a key.
-/
import Polydoc.Entries

set_option autoImplicit false

namespace Polydoc.Entries

variable {κ α β : Type} [DecidableEq κ]

theorem keys_put_of_mem {key : κ} {entries : List (κ × α)} (h : key ∈ keys entries) (value : α) :
    keys (put key value entries) = keys entries := by
  rw [keys_put, if_pos h]

theorem mem_keys_of_get? {key : κ} {value : α} {entries : List (κ × α)}
    (h : get? key entries = some value) : key ∈ keys entries :=
  (get?_isSome_iff key entries).mp (by rw [h]; rfl)

theorem get?_eq_none_iff {key : κ} {entries : List (κ × α)} :
    get? key entries = none ↔ key ∉ keys entries := by
  rw [← get?_isSome_iff, Option.not_isSome_iff_eq_none]

theorem exists_get?_of_mem {key : κ} {entries : List (κ × α)} (h : key ∈ keys entries) :
    ∃ value, get? key entries = some value :=
  Option.isSome_iff_exists.mp ((get?_isSome_iff key entries).mpr h)

theorem mem_of_get? {key : κ} {value : α} {entries : List (κ × α)}
    (h : get? key entries = some value) : (key, value) ∈ entries := by
  induction entries with
  | nil => cases h
  | cons e rest ih =>
    obtain ⟨k, v⟩ := e
    simp only [get?] at h
    split at h
    · rename_i hk
      cases h
      rw [hk]
      exact List.mem_cons_self
    · exact List.mem_cons_of_mem _ (ih h)

/-- Where no key stands twice, every pair is found under its key. -/
theorem get?_of_mem {entries : List (κ × α)} (hd : Distinct entries) {key : κ} {value : α}
    (h : (key, value) ∈ entries) : get? key entries = some value := by
  induction entries with
  | nil => cases h
  | cons e rest ih =>
    obtain ⟨k, v⟩ := e
    unfold Distinct keys at hd
    rw [List.map_cons, List.nodup_cons] at hd
    rcases List.mem_cons.mp h with heq | hrest
    · cases heq
      simp [get?]
    · have hk : k ≠ key := by
        rintro rfl
        exact hd.1 (List.mem_map.mpr ⟨_, hrest, rfl⟩)
      rw [get?, if_neg hk]
      exact ih hd.2 hrest

/-- Storing what is there already changes nothing. -/
theorem put_of_get? {key : κ} {value : α} {entries : List (κ × α)}
    (h : get? key entries = some value) : put key value entries = entries := by
  induction entries with
  | nil => cases h
  | cons e rest ih =>
    obtain ⟨k, v⟩ := e
    by_cases hk : k = key
    · simp only [get?, hk, if_true, Option.some.injEq] at h
      simp [put, hk, h]
    · simp only [get?, hk, if_false] at h
      simp [put, hk, ih h]

/-- The later of two values stored under a key is kept. -/
theorem put_put (key : κ) (value later : α) (entries : List (κ × α)) :
    put key later (put key value entries) = put key later entries := by
  induction entries with
  | nil => simp [put]
  | cons e rest ih =>
    obtain ⟨k, v⟩ := e
    by_cases hk : k = key
    · simp [put, hk]
    · simp [put, hk, ih]

/-- Values stored under two keys, of which one is there already, can be stored in either order. -/
theorem put_comm {key k : κ} (h : key ≠ k) {entries : List (κ × α)} (hk : key ∈ keys entries)
    (value other : α) :
    put k other (put key value entries) = put key value (put k other entries) := by
  induction entries with
  | nil => simp [keys] at hk
  | cons e rest ih =>
    obtain ⟨k', v⟩ := e
    by_cases hkey : k' = key
    · subst hkey
      simp [put, h]
    · have hrest : key ∈ keys rest := by
        have hkey' : key ≠ k' := fun heq => hkey heq.symm
        simpa [keys, hkey'] using hk
      by_cases hother : k' = k
      · simp [put, hother, Ne.symm h]
      · simp [put, hkey, hother, ih hrest]

/-- A stored key splits the dictionary at its first entry. -/
theorem split_of_get? {key : κ} {value : α} {entries : List (κ × α)}
    (h : get? key entries = some value) :
    ∃ before after, entries = before ++ (key, value) :: after ∧ key ∉ keys before ∧
      ∀ other, put key other entries = before ++ (key, other) :: after := by
  induction entries with
  | nil => cases h
  | cons e rest ih =>
    obtain ⟨k, v⟩ := e
    by_cases hk : k = key
    · subst hk
      simp only [get?, if_true, Option.some.injEq] at h
      subst h
      exact ⟨[], rest, rfl, by simp [keys], fun other => by simp [put]⟩
    · simp only [get?, hk, if_false] at h
      obtain ⟨before, after, rfl, hbefore, hput⟩ := ih h
      refine ⟨(k, v) :: before, after, rfl, ?_, fun other => ?_⟩
      · have hk' : key ≠ k := fun heq => hk heq.symm
        simpa [keys, hk'] using hbefore
      · simp [put, hk, hput]

/-- Entries behind a stored key do not change its value. -/
theorem get?_append_of_get? {key : κ} {value : α} {entries : List (κ × α)}
    (h : get? key entries = some value) (more : List (κ × α)) :
    get? key (entries ++ more) = some value := by
  induction entries with
  | nil => cases h
  | cons e rest ih =>
    obtain ⟨k, v⟩ := e
    by_cases hk : k = key
    · rw [get?, if_pos hk] at h
      rw [List.cons_append, get?, if_pos hk, h]
    · rw [get?, if_neg hk] at h
      rw [List.cons_append, get?, if_neg hk, ih h]

theorem get?_append (key : κ) (entries more : List (κ × α)) :
    get? key (entries ++ more) = (get? key entries).or (get? key more) := by
  induction entries with
  | nil => rfl
  | cons e rest ih =>
    obtain ⟨k, v⟩ := e
    by_cases hk : k = key
    · simp [get?, hk]
    · simp [get?, hk, ih]

/-! Behind entries of other keys -/

theorem get?_append_cons {key : κ} {before : List (κ × α)} (h : key ∉ keys before) (value : α)
    (after : List (κ × α)) : get? key (before ++ (key, value) :: after) = some value := by
  induction before with
  | nil => rw [List.nil_append, get?, if_pos rfl]
  | cons e rest ih =>
    obtain ⟨k, v⟩ := e
    simp only [keys, List.map_cons, List.mem_cons, not_or] at h
    rw [List.cons_append, get?, if_neg (Ne.symm h.1)]
    exact ih h.2

theorem put_append_cons {key : κ} {before : List (κ × α)} (h : key ∉ keys before)
    (value other : α) (after : List (κ × α)) :
    put key other (before ++ (key, value) :: after) = before ++ (key, other) :: after := by
  induction before with
  | nil => rw [List.nil_append, put, if_pos rfl, List.nil_append]
  | cons e rest ih =>
    obtain ⟨k, v⟩ := e
    simp only [keys, List.map_cons, List.mem_cons, not_or] at h
    rw [List.cons_append, put, if_neg (Ne.symm h.1), ih h.2, List.cons_append]

/-- Nothing is in a dictionary after storing but what was stored and what was there. -/
theorem mem_put {key : κ} {value : α} {entries : List (κ × α)} {e : κ × α}
    (h : e ∈ put key value entries) : e = (key, value) ∨ e ∈ entries := by
  induction entries with
  | nil => exact .inl (List.mem_singleton.mp h)
  | cons first rest ih =>
    obtain ⟨k, v⟩ := first
    by_cases hk : k = key
    · rw [put, if_pos hk, hk] at h
      rcases List.mem_cons.mp h with rfl | hrest
      · exact .inl rfl
      · exact .inr (List.mem_cons_of_mem _ hrest)
    · rw [put, if_neg hk] at h
      rcases List.mem_cons.mp h with rfl | hrest
      · exact .inr List.mem_cons_self
      · exact (ih hrest).imp_right (List.mem_cons_of_mem _)

/-- What is true of the values there and of the one stored is true of all values afterwards. -/
theorem forall_mem_put {p : α → Prop} {key : κ} {value : α} {entries : List (κ × α)}
    (h : ∀ e ∈ entries, p e.2) (hvalue : p value) : ∀ e ∈ put key value entries, p e.2 := by
  intro e he
  rcases mem_put he with rfl | hmem
  · exact hvalue
  · exact h e hmem

/-! ## Dictionaries of pairs -/

theorem mem_of_mem_putAll {e : κ × α} {pairs : List (κ × α)} :
    ∀ {before : List (κ × α)}, e ∈ putAll before pairs → e ∈ before ∨ e ∈ pairs := by
  induction pairs with
  | nil =>
    intro before h
    exact .inl h
  | cons first rest ih =>
    intro before h
    have hstep : e ∈ putAll (put first.1 first.2 before) rest := h
    rcases ih hstep with hput | hrest
    · rcases mem_put hput with rfl | hbefore
      · exact .inr List.mem_cons_self
      · exact .inl hbefore
    · exact .inr (List.mem_cons_of_mem _ hrest)

theorem mem_of_mem_ofList {pairs : List (κ × α)} {e : κ × α} (h : e ∈ ofList pairs) :
    e ∈ pairs := by
  rcases mem_of_mem_putAll h with hnil | hpairs
  · cases hnil
  · exact hpairs

/-- The keys with one more at the end, unless it is there already. -/
def addKey (ks : List κ) (key : κ) : List κ :=
  if key ∈ ks then ks else ks ++ [key]

theorem mem_addKey {key k : κ} {ks : List κ} : key ∈ addKey ks k ↔ key ∈ ks ∨ key = k := by
  unfold addKey
  split
  · rename_i hk
    constructor
    · exact .inl
    · rintro (h | rfl)
      · exact h
      · exact hk
  · rw [List.mem_append, List.mem_singleton]

theorem mem_foldl_addKey {key : κ} {new : List κ} :
    ∀ {ks : List κ}, key ∈ new.foldl addKey ks ↔ key ∈ ks ∨ key ∈ new := by
  induction new with
  | nil => intro ks; simp
  | cons k rest ih =>
    intro ks
    rw [List.foldl_cons, ih, mem_addKey, List.mem_cons, or_assoc]

theorem keys_putAll {pairs : List (κ × α)} :
    ∀ {before : List (κ × α)},
      keys (putAll before pairs) = (keys pairs).foldl addKey (keys before) := by
  induction pairs with
  | nil => intro before; rfl
  | cons e rest ih =>
    intro before
    have hput : keys (put e.1 e.2 before) = addKey (keys before) e.1 := keys_put e.1 e.2 before
    have hstep : putAll before (e :: rest) = putAll (put e.1 e.2 before) rest := rfl
    rw [hstep, ih, hput]
    rfl

/-- Which keys a dictionary of pairs has, and in which order, depends on the keys alone. -/
theorem keys_ofList_congr {pairs : List (κ × α)} {others : List (κ × β)}
    (h : keys pairs = keys others) : keys (ofList pairs) = keys (ofList others) := by
  rw [ofList, ofList, keys_putAll, keys_putAll, h]
  rfl

/-- The keys of a dictionary of pairs are those of the pairs. -/
theorem mem_keys_ofList {key : κ} {pairs : List (κ × α)} :
    key ∈ keys (ofList pairs) ↔ key ∈ keys pairs := by
  rw [ofList, keys_putAll, mem_foldl_addKey]
  simp [keys]

theorem put_of_notMem {key : κ} {entries : List (κ × α)} (h : key ∉ keys entries) (value : α) :
    put key value entries = entries ++ [(key, value)] := by
  induction entries with
  | nil => rfl
  | cons e rest ih =>
    obtain ⟨k, v⟩ := e
    simp only [keys, List.map_cons, List.mem_cons, not_or] at h
    simp [put, Ne.symm h.1, ih h.2]

/-- The dictionary of pairs with distinct keys is the list of these pairs. -/
theorem ofList_of_distinct {pairs : List (κ × α)} (h : Distinct pairs) : ofList pairs = pairs := by
  have hall : ∀ (rest before : List (κ × α)), Distinct (before ++ rest) →
      putAll before rest = before ++ rest := by
    intro rest
    induction rest with
    | nil => intro before _; simp [putAll]
    | cons e rest ih =>
      intro before hd
      have hnew : e.1 ∉ keys before := by
        unfold Distinct keys at hd
        rw [List.map_append, List.nodup_append] at hd
        exact fun hm => hd.2.2 e.1 hm e.1 (by simp) rfl
      have hput := put_of_notMem hnew e.2
      rw [List.append_cons] at hd ⊢
      rw [← ih _ hd, putAll, List.foldl_cons, hput]
      rfl
  exact hall pairs [] h

/-- Whether a key is stored depends on the keys alone. -/
theorem isSome_get?_congr {entries : List (κ × α)} {others : List (κ × β)}
    (h : keys entries = keys others) (key : κ) :
    (get? key entries).isSome = (get? key others).isSome := by
  rw [Bool.eq_iff_iff, get?_isSome_iff, get?_isSome_iff, h]

theorem foldedKey?_congr {entries : List (String × α)} {others : List (String × β)}
    (h : keys entries = keys others) (folded : String) :
    foldedKey? folded entries = foldedKey? folded others := by
  induction entries generalizing others with
  | nil =>
    cases others with
    | nil => rfl
    | cons e rest => cases h
  | cons e rest ih =>
    cases others with
    | nil => cases h
    | cons e' rest' =>
      simp only [keys, List.map_cons, List.cons.injEq] at h
      simp only [foldedKey?, h.1, ih h.2]

/-- The stored key that a name stands for depends on the keys alone. -/
theorem resolve?_congr {entries : List (String × α)} {others : List (String × β)}
    (h : keys entries = keys others) (name : String) :
    resolve? name entries = resolve? name others := by
  simp only [resolve?, isSome_get?_congr h, foldedKey?_congr h]

/-! ## Look-ups as searches -/

theorem get?_eq_find? (key : κ) (entries : List (κ × α)) :
    get? key entries = (entries.find? fun e => e.1 = key).map Prod.snd := by
  induction entries with
  | nil => rfl
  | cons e rest ih =>
    obtain ⟨k, v⟩ := e
    by_cases hk : k = key
    · rw [get?, if_pos hk, List.find?_cons_of_pos (by simpa using hk)]
      rfl
    · rw [get?, if_neg hk, List.find?_cons_of_neg (by simpa using hk), ih]

theorem lowercase_of_foldedKey? {folded key : String} {entries : List (String × α)}
    (h : foldedKey? folded entries = some key) : Text.lowercase key = folded := by
  induction entries with
  | nil => cases h
  | cons e rest ih =>
    obtain ⟨k, v⟩ := e
    rw [foldedKey?] at h
    split at h
    · rename_i hk
      cases h
      exact hk
    · exact ih h

theorem lowercase_of_resolve? {name key : String} {entries : List (String × α)}
    (h : resolve? name entries = some key) : Text.lowercase key = Text.lowercase name := by
  unfold resolve? at h
  split at h
  · cases h
    rfl
  · exact lowercase_of_foldedKey? h

theorem exists_foldedKey? {key : String} {entries : List (String × α)} (h : key ∈ keys entries) :
    ∃ k, foldedKey? (Text.lowercase key) entries = some k := by
  induction entries with
  | nil => cases h
  | cons e rest ih =>
    obtain ⟨k, v⟩ := e
    rw [foldedKey?]
    split
    · exact ⟨k, rfl⟩
    · rename_i hk
      rcases List.mem_cons.mp h with rfl | hrest
      · exact absurd rfl hk
      · exact ih hrest

/-- A name stands for some key, if one differs from it in letter case alone. -/
theorem exists_resolve? {name key : String} {entries : List (String × α)} (h : key ∈ keys entries)
    (hname : Text.lowercase key = Text.lowercase name) : ∃ k, resolve? name entries = some k := by
  unfold resolve?
  split
  · exact ⟨name, rfl⟩
  · rw [← hname]
    exact exists_foldedKey? h

/-- The key that is found by its lower-case form has the value that stands beside it. -/
theorem foldedKey?_bind_get? (folded : String) (entries : List (String × α)) :
    ((foldedKey? folded entries).bind fun key => get? key entries) =
      (entries.find? fun e => Text.lowercase e.1 = folded).map Prod.snd := by
  induction entries with
  | nil => rfl
  | cons e rest ih =>
    obtain ⟨k, v⟩ := e
    by_cases hk : Text.lowercase k = folded
    · rw [foldedKey?, if_pos hk, List.find?_cons_of_pos (by simpa using hk)]
      simp [get?]
    · rw [foldedKey?, if_neg hk, List.find?_cons_of_neg (by simpa using hk), ← ih]
      cases hf : foldedKey? folded rest with
      | none => rfl
      | some key =>
        have hne : k ≠ key := fun heq => hk (heq ▸ lowercase_of_foldedKey? hf)
        rw [Option.bind_some, Option.bind_some, get?, if_neg hne]

/-! ## Pairs and their dictionary -/

/-- One entry has the key, and its value. -/
def Once (key : κ) (value : α) (entries : List (κ × α)) : Prop :=
  ∃ before after, entries = before ++ (key, value) :: after ∧ key ∉ keys before ∧ key ∉ keys after

/-- Where no key stands twice, a stored pair is the only one of its key. -/
theorem once_of_get? {key : κ} {value : α} {entries : List (κ × α)} (hd : Distinct entries)
    (h : get? key entries = some value) : Once key value entries := by
  obtain ⟨before, after, rfl, hbefore, -⟩ := split_of_get? h
  refine ⟨before, after, rfl, hbefore, ?_⟩
  unfold Distinct keys at hd
  rw [List.map_append, List.nodup_append] at hd
  exact (List.nodup_cons.mp hd.2.1).1

theorem get?_putAll_of_notMem {key : κ} {pairs : List (κ × α)} (h : key ∉ keys pairs) :
    ∀ (before : List (κ × α)), get? key (putAll before pairs) = get? key before := by
  induction pairs with
  | nil =>
    intro before
    rfl
  | cons e rest ih =>
    intro before
    simp only [keys, List.map_cons, List.mem_cons, not_or] at h
    have hstep : putAll before (e :: rest) = putAll (put e.1 e.2 before) rest := rfl
    rw [hstep, ih h.2, get?_put, if_neg (Ne.symm h.1)]

/-- A key that has one entry has its value in the dictionary of the pairs. -/
theorem Once.get?_ofList {key : κ} {value : α} {pairs : List (κ × α)} (h : Once key value pairs) :
    get? key (ofList pairs) = some value := by
  obtain ⟨before, after, rfl, _, hafter⟩ := h
  have hsplit : ofList (before ++ (key, value) :: after) =
      putAll (put key value (putAll [] before)) after := by
    rw [ofList, putAll, List.foldl_append]
    rfl
  rw [hsplit, get?_putAll_of_notMem hafter, get?_put, if_pos rfl]

theorem Once.unique {key : κ} {value other : α} {pairs : List (κ × α)} (h : Once key value pairs)
    (h' : Once key other pairs) : value = other := by
  have hget := h.get?_ofList
  rw [h'.get?_ofList] at hget
  cases hget
  rfl

omit [DecidableEq κ] in
theorem Once.eq_of_mem {key : κ} {value other : α} {pairs : List (κ × α)}
    (h : Once key value pairs) (hmem : (key, other) ∈ pairs) : other = value := by
  obtain ⟨before, after, rfl, hbefore, hafter⟩ := h
  rcases List.mem_append.mp hmem with hmem | hmem
  · exact absurd (List.mem_map_of_mem hmem) hbefore
  · rcases List.mem_cons.mp hmem with heq | hmem
    · cases heq
      rfl
    · exact absurd (List.mem_map_of_mem hmem) hafter

theorem foldedKey?_put (folded key : String) (value : α) (entries : List (String × α)) :
    foldedKey? folded (put key value entries) =
      (foldedKey? folded entries).or (foldedKey? folded [(key, value)]) := by
  induction entries with
  | nil => rfl
  | cons e rest ih =>
    obtain ⟨k, v⟩ := e
    by_cases hk : k = key
    · subst hk
      by_cases hfold : Text.lowercase k = folded
      · simp [put, foldedKey?, hfold]
      · simp [put, foldedKey?, hfold]
    · by_cases hfold : Text.lowercase k = folded
      · simp [put, foldedKey?, hk, hfold]
      · simp [put, foldedKey?, hk, hfold, ih]

theorem foldedKey?_putAll (folded : String) {pairs : List (String × α)} :
    ∀ (before : List (String × α)), foldedKey? folded (putAll before pairs) =
      (foldedKey? folded before).or (foldedKey? folded pairs) := by
  induction pairs with
  | nil =>
    intro before
    rw [foldedKey?, Option.or_none]
    rfl
  | cons e rest ih =>
    intro before
    obtain ⟨k, v⟩ := e
    have hstep : putAll before ((k, v) :: rest) = putAll (put k v before) rest := rfl
    have hcons : foldedKey? folded ((k, v) :: rest) =
        (foldedKey? folded [(k, v)]).or (foldedKey? folded rest) := by
      by_cases hfold : Text.lowercase k = folded <;> simp [foldedKey?, hfold]
    rw [hstep, ih, foldedKey?_put, hcons, Option.or_assoc]

/-- A name stands for the same key in pairs and in their dictionary. -/
theorem resolve?_ofList (name : String) (pairs : List (String × α)) :
    resolve? name (ofList pairs) = resolve? name pairs := by
  have hget : (get? name (ofList pairs)).isSome = (get? name pairs).isSome := by
    rw [Bool.eq_iff_iff, get?_isSome_iff, get?_isSome_iff, mem_keys_ofList]
  have hfolded : foldedKey? (Text.lowercase name) (ofList pairs) =
      foldedKey? (Text.lowercase name) pairs := foldedKey?_putAll _ []
  rw [resolve?, resolve?, hget, hfolded]

end Polydoc.Entries
