/-
  Proofs/Decode/Merging.lean --- decoding into a mapping is a deep merge in which the source wins.

  Without records and layers in it, a mapping is filled by the entries of the source one after
  another, in place.  What comes of it can be said without the steps: the keys of the target in
  their order, each with its value merged with that of the source, and behind them the keys that are
  new.
-/
import Polydoc.Proofs.Decode.Copies
import Polydoc.Proofs.Navigation.Backtracking

set_option autoImplicit false

namespace Polydoc

namespace Node

/-! ## The deep merge -/

/-- The entries of a source whose keys are not there yet. -/
def newEntries (entries values : List (String × Node)) : List (String × Node) :=
  values.filter fun e => (Entries.get? e.1 entries).isNone

mutual

/-- A node merged with a source: two mappings key by key, and else the source wins. -/
def merged : Node → Node → Node
  | .mapping entries, .mapping values =>
    .mapping (mergedEntries entries values ++ newEntries entries values)
  | _, source => source

/-- Entries in their order, each value merged with the one that the source has for its key. -/
def mergedEntries : List (String × Node) → List (String × Node) → List (String × Node)
  | [], _ => []
  | (key, n) :: rest, values =>
    (key, match Entries.get? key values with
      | some source => n.merged source
      | none => n) :: mergedEntries rest values

end

/-- Whatever is not merged with a mapping as a mapping gives way to the source. -/
theorem merged_of_other {n source : Node}
    (h : ∀ entries values, n = .mapping entries → source ≠ .mapping values) :
    n.merged source = source := by
  cases n with
  | mapping entries =>
    cases source with
    | mapping values => exact absurd rfl (h entries values rfl)
    | _ => rfl
  | _ => rfl

section Entries

variable {entries values : List (String × Node)} {key : String}

theorem mergedEntries_nil (entries : List (String × Node)) :
    mergedEntries entries [] = entries := by
  induction entries with
  | nil => rfl
  | cons e rest ih =>
    obtain ⟨key, n⟩ := e
    exact congrArg ((key, n) :: ·) ih

theorem mergedEntries_append (xs ys values : List (String × Node)) :
    mergedEntries (xs ++ ys) values = mergedEntries xs values ++ mergedEntries ys values := by
  induction xs with
  | nil => rfl
  | cons e rest ih =>
    obtain ⟨key, n⟩ := e
    rw [List.cons_append, mergedEntries, ih]
    rfl

/-- A value of the source under another key is merged with none of the entries. -/
theorem mergedEntries_cons_of_notMem (h : key ∉ Entries.keys entries) (source : Node)
    (values : List (String × Node)) :
    mergedEntries entries ((key, source) :: values) = mergedEntries entries values := by
  induction entries with
  | nil => rfl
  | cons e rest ih =>
    obtain ⟨k, n⟩ := e
    simp only [Entries.keys, List.map_cons, List.mem_cons, not_or] at h
    rw [mergedEntries, mergedEntries, Entries.get?, if_neg h.1, ih h.2]

/-- One value can be merged before the others. -/
theorem mergedEntries_put (hd : Entries.Distinct entries) {slot : Node}
    (hslot : Entries.get? key entries = some slot) (hkey : key ∉ Entries.keys values)
    (source : Node) :
    mergedEntries (Entries.put key (slot.merged source) entries) values =
      mergedEntries entries ((key, source) :: values) := by
  have hget : Entries.get? key values = none := Entries.get?_eq_none_iff.mpr hkey
  obtain ⟨before, after, rfl, hbefore, hafter⟩ := Entries.once_of_get? hd hslot
  rw [Entries.put_append_cons hbefore, mergedEntries_append, mergedEntries_append,
    mergedEntries_cons_of_notMem hbefore, mergedEntries, mergedEntries,
    mergedEntries_cons_of_notMem hafter, hget, Entries.get?, if_pos rfl]

theorem newEntries_put (hkey : key ∉ Entries.keys values) (n : Node) :
    newEntries (Entries.put key n entries) values = newEntries entries values := by
  refine List.filter_congr fun e he => ?_
  have hne : key ≠ e.1 := fun heq => hkey (heq ▸ List.mem_map_of_mem he)
  rw [Entries.get?_put, if_neg hne]

/-! What stands under a key -/

theorem get?_mergedEntries (key : String) (entries values : List (String × Node)) :
    Entries.get? key (mergedEntries entries values) =
      (Entries.get? key entries).map fun n =>
        ((Entries.get? key values).map n.merged).getD n := by
  induction entries with
  | nil => rfl
  | cons e rest ih =>
    obtain ⟨k, n⟩ := e
    by_cases hk : k = key
    · subst hk
      rw [mergedEntries, Entries.get?, if_pos rfl, Entries.get?, if_pos rfl]
      cases Entries.get? k values <;> rfl
    · rw [mergedEntries, Entries.get?, if_neg hk, Entries.get?, if_neg hk, ih]

theorem get?_newEntries (h : Entries.get? key entries = none) (values : List (String × Node)) :
    Entries.get? key (newEntries entries values) = Entries.get? key values := by
  induction values with
  | nil => rfl
  | cons e rest ih =>
    obtain ⟨k, n⟩ := e
    unfold newEntries at ih ⊢
    by_cases hk : k = key
    · subst hk
      rw [List.filter_cons_of_pos (by simp [h]), Entries.get?, if_pos rfl, Entries.get?, if_pos rfl]
    · rw [Entries.get?, if_neg hk, ← ih, List.filter_cons]
      split
      · rw [Entries.get?, if_neg hk]
      · rfl

/-- The value of the target under a key is merged with that of the source, where both have one. -/
theorem get?_merged (key : String) (entries values : List (String × Node)) :
    Entries.get? key (mergedEntries entries values ++ newEntries entries values) =
      match Entries.get? key entries with
      | some n => some (((Entries.get? key values).map n.merged).getD n)
      | none => Entries.get? key values := by
  rw [Entries.get?_append, get?_mergedEntries]
  cases hget : Entries.get? key entries with
  | some n => rfl
  | none => exact get?_newEntries hget values

end Entries

/-! ## Paths into the merge -/

section Paths

variable {n source v : Node} {entries values : List (String × Node)} {name : String}

theorem enter_mapping_eq_ok_iff {child : Node} :
    (Node.mapping entries).enter name = .ok child ↔ Entries.get? name entries = some child :=
  enter_eq_ok_iff

/-- A name leads into a parsed document only as a key of a mapping. -/
theorem Parsed.enter_eq_ok_iff {child : Node} (h : Parsed n) :
    n.enter name = .ok child ↔
      ∃ entries, n = .mapping entries ∧ Entries.get? name entries = some child := by
  rw [Node.enter_eq_ok_iff]
  cases n with
  | mapping entries =>
    constructor
    · exact fun hm => ⟨entries, rfl, hm⟩
    · rintro ⟨others, heq, hget⟩
      cases heq
      exact hget
  | record type held => exact absurd .here (h.plain.recordFree type held)
  | indirect inner => exact absurd .here (h.plain.layerFree inner)
  | _ =>
    constructor
    · intro hm
      cases hm
    · rintro ⟨others, heq, -⟩
      cases heq

/-- Names that lead to anything but a mapping in the source lead to the same in the merge. -/
theorem walk_merged_of_leaf {names : List String} (hv : ∀ values, v ≠ .mapping values) :
    ∀ {n source : Node} {index : Nat}, Parsed source →
      source.walk index (names.map .name) = .ok v →
        (n.merged source).walk index (names.map .name) = .ok v := by
  induction names with
  | nil =>
    intro n source index _ hw
    cases hw
    rw [merged_of_other fun _ values _ => hv values]
    rfl
  | cons name rest ih =>
    intro n source index hs hw
    rcases enter_cases source name with ⟨_, child, _, _, he⟩ | ⟨_, he⟩
    · obtain ⟨values, rfl, hget⟩ := hs.enter_eq_ok_iff.mp he
      have hchild : Parsed child := hs.part (.entry (Entries.mem_of_get? hget) .here)
      rw [List.map_cons, walk_name he] at hw
      by_cases hn : ∃ entries, n = .mapping entries
      · obtain ⟨entries, rfl⟩ := hn
        have hmerged := get?_merged name entries values
        rw [hget] at hmerged
        cases hslot : Entries.get? name entries with
        | none =>
          rw [hslot] at hmerged
          rw [List.map_cons, merged, walk_name (enter_mapping_eq_ok_iff.mpr hmerged)]
          exact hw
        | some slot =>
          rw [hslot] at hmerged
          rw [List.map_cons, merged, walk_name (enter_mapping_eq_ok_iff.mpr hmerged)]
          exact ih hchild hw
      · rw [merged_of_other fun entries _ heq => absurd ⟨entries, heq⟩ hn, List.map_cons,
          walk_name he]
        exact hw
    · rw [List.map_cons, walk_name_error he] at hw
      cases hw

/-- Names that leave the mappings of the source at a key that it lacks lead in the merge where they
led before. -/
theorem walk_merged_of_missing {name : String} (hkey : name ∉ Entries.keys values)
    {after : List Element} {before : List String} :
    ∀ {n source : Node} {index : Nat}, Parsed n → Parsed source →
      source.walk index (before.map .name) = .ok (.mapping values) →
      n.walk index (before.map .name ++ .name name :: after) = .ok v →
        (n.merged source).walk index (before.map .name ++ .name name :: after) = .ok v := by
  induction before with
  | nil =>
    intro n source index h _ hsource hw
    cases hsource
    rcases enter_cases n name with ⟨_, child, _, _, he⟩ | ⟨_, he⟩
    · obtain ⟨entries, rfl, hget⟩ := h.enter_eq_ok_iff.mp he
      have hmerged := get?_merged name entries values
      rw [hget, Entries.get?_eq_none_iff.mpr hkey] at hmerged
      rw [List.map_nil, List.nil_append, walk_name he] at hw
      rw [merged, List.map_nil, List.nil_append,
        walk_name (enter_mapping_eq_ok_iff.mpr hmerged)]
      exact hw
    · rw [List.map_nil, List.nil_append, walk_name_error he] at hw
      cases hw
  | cons first rest ih =>
    intro n source index h hs hsource hw
    rw [List.map_cons, List.cons_append] at hw
    rcases enter_cases n first with ⟨_, slot, _, _, he⟩ | ⟨_, he⟩
    · rcases enter_cases source first with ⟨_, child, _, _, hc⟩ | ⟨_, hc⟩
      · obtain ⟨entries, rfl, hslot⟩ := h.enter_eq_ok_iff.mp he
        obtain ⟨members, rfl, hget⟩ := hs.enter_eq_ok_iff.mp hc
        have hmerged := get?_merged first entries members
        rw [hslot, hget] at hmerged
        rw [List.map_cons, walk_name hc] at hsource
        rw [walk_name he] at hw
        rw [merged, List.map_cons, List.cons_append,
          walk_name (enter_mapping_eq_ok_iff.mpr hmerged)]
        exact ih (h.part (.entry (Entries.mem_of_get? hslot) .here))
          (hs.part (.entry (Entries.mem_of_get? hget) .here)) hsource hw
      · rw [List.map_cons, walk_name_error hc] at hsource
        cases hsource
    · rw [walk_name_error he] at hw
      cases hw

end Paths

end Node

/-! ## The decoder merges -/

namespace Decode

open Node

/-- Entries merged one after another, where each is decoded into a slot as the two are merged. -/
theorem merge_eq {values : List (String × Node)} {place : Place} (hd : Entries.Distinct values) :
    ∀ {entries : List (String × Node)}, Entries.Distinct entries →
      (∀ e ∈ values, ∀ slot, Entries.get? e.1 entries = some slot →
        ∀ place, into e.2 slot place = (slot.merged e.2, .ok ())) →
      merge values entries place =
        (mergedEntries entries values ++ newEntries entries values, .ok ()) := by
  induction values with
  | nil =>
    intro entries _ _
    have hnew : newEntries entries [] = [] := rfl
    rw [merge_nil, mergedEntries_nil, hnew, List.append_nil]
  | cons first rest ih =>
    intro entries hentries hinto
    obtain ⟨key, source⟩ := first
    obtain ⟨hkey, hrest⟩ := List.nodup_cons.mp hd
    -- the other keys have what they had
    have hnext (n : Node) : merge rest (Entries.put key n entries) place =
        (mergedEntries (Entries.put key n entries) rest ++ newEntries entries rest, .ok ()) := by
      rw [← newEntries_put hkey n]
      refine ih hrest (Entries.distinct_put key n hentries) fun e he slot hslot => ?_
      have hmem : e.1 ∈ Entries.keys rest := List.mem_map_of_mem he
      have hne : key ≠ e.1 := fun heq => hkey (heq ▸ hmem)
      rw [Entries.get?_put, if_neg hne] at hslot
      exact hinto e (List.mem_cons_of_mem _ he) slot hslot
    cases hget : Entries.get? key entries with
    | none =>
      have hmem : key ∉ Entries.keys entries := Entries.get?_eq_none_iff.mp hget
      have hnew : newEntries entries ((key, source) :: rest) =
          (key, source) :: newEntries entries rest :=
        List.filter_cons_of_pos (by rw [hget]; rfl)
      have hlast : mergedEntries [(key, source)] rest = [(key, source)] := by
        rw [mergedEntries, Entries.get?_eq_none_iff.mpr hkey]
        rfl
      rw [merge_cons_none hget, hnext, Entries.put_of_notMem hmem, mergedEntries_append, hlast,
        mergedEntries_cons_of_notMem hmem, hnew, List.append_assoc]
      rfl
    | some slot =>
      have hnew : newEntries entries ((key, source) :: rest) = newEntries entries rest :=
        List.filter_cons_of_neg (by rw [hget]; exact Bool.false_ne_true)
      rw [merge_cons_some hget, hinto _ List.mem_cons_self slot hget]
      dsimp only
      rw [hnext, mergedEntries_put hentries hget hkey, hnew]

/-- Decoding into a slot without a declared kind merges the two. -/
theorem into_merges {source : Node} (hs : Parsed source) :
    ∀ {slot : Node}, Parsed slot → ∀ (place : Place),
      into source slot place = (slot.merged source, .ok ()) := by
  induction hsize : sizeOf source using Nat.strongRecOn generalizing source with
  | _ size ih =>
    intro slot h place
    by_cases hmappings : ∃ entries values, slot = .mapping entries ∧ source = .mapping values
    · obtain ⟨entries, values, rfl, rfl⟩ := hmappings
      have hmerge : merge values entries place =
          (mergedEntries entries values ++ newEntries entries values, .ok ()) := by
        refine merge_eq (hs.keyed values .here) (h.keyed entries .here) fun e he n hn => ?_
        exact ih _ (hsize ▸ sizeOf_entry_lt rfl he) (hs.part (.entry he .here)) rfl
          (h.part (.entry (Entries.mem_of_get? hn) .here))
      rw [into_of_mappings rfl rfl, hmerge]
      rfl
    · have hother : ∀ entries values, slot = .mapping entries → source ≠ .mapping values :=
        fun entries values hn hs => hmappings ⟨entries, values, hn, hs⟩
      have hcore : slot.core = slot := h.plain.core
      rw [into_of_other, withCore_of_bare hcore, hs.plain.core, merged_of_other hother]
      · intro type held heq
        rw [hcore] at heq
        exact h.plain.recordFree type held (heq ▸ .here)
      · intro entries values heq
        rw [hcore] at heq
        rw [hs.plain.core]
        exact hother entries values heq

end Decode

open Node

/-- **Decoding into a mapping is a deep merge.**  The source and the mapping are made of nulls,
scalars, sequences and mappings.  Decoding never fails.  A null changes nothing; any other source
is merged with the target, in which the source wins, so that all but a mapping takes its place.
What the names lead to in a source mapping, unless it is a mapping itself, they lead to in the
result, and names that lead out of the source's mappings at a key it lacks lead to what they led to
before. -/
theorem decodeInto_merges {source : Node} {entries : List (String × Node)} (hs : Parsed source)
    (ht : Parsed (.mapping entries)) :
    (source.isNull = true →
        decodeInto source (.mapping entries) = (.mapping entries, .ok ())) ∧
      (source.isNull = false →
        decodeInto source (.mapping entries) = ((Node.mapping entries).merged source, .ok ())) ∧
      ((∀ values, source ≠ .mapping values) → (Node.mapping entries).merged source = source) ∧
      (∀ values, source = .mapping values →
        (∀ names absolute v, source.at? (.ofNames names absolute) = .ok v →
          (∀ others, v ≠ .mapping others) →
            (decodeInto source (.mapping entries)).1.at? (.ofNames names absolute) = .ok v) ∧
        ∀ before name after absolute members v,
          source.at? (.ofNames before absolute) = .ok (.mapping members) →
          name ∉ Entries.keys members →
          (Node.mapping entries).at? (.ofNames (before ++ name :: after) absolute) = .ok v →
            (decodeInto source (.mapping entries)).1.at?
              (.ofNames (before ++ name :: after) absolute) = .ok v) := by
  have hmerge (hnull : source.isNull = false) :
      decodeInto source (.mapping entries) = ((Node.mapping entries).merged source, .ok ()) := by
    rw [decodeInto, if_neg (by simp [hnull])]
    exact Decode.into_merges hs ht []
  refine ⟨fun hnull => decodeInto_null hnull _, hmerge,
    fun hother => merged_of_other fun _ values _ => hother values, ?_⟩
  rintro values rfl
  rw [hmerge rfl]
  refine ⟨fun names absolute v hread hv => ?_,
    fun before name after absolute members v hread hkey hv => ?_⟩
  · exact at?_eq_ok_iff.mpr (walk_merged_of_leaf hv hs (at?_eq_ok_iff.mp hread))
  · rw [at?_eq_ok_iff] at hread hv ⊢
    have hsplit : (Path.ofNames (before ++ name :: after) absolute).elements =
        before.map .name ++ .name name :: after.map .name := List.map_append
    rw [hsplit] at hv ⊢
    exact walk_merged_of_missing hkey ht hs hread hv

/-- Keys on both sides keep the place they have in the target, a null of the source is a value like
any other, and a mapping takes the place of a number. -/
theorem decodeInto_merges_settings :
    let entries : List (String × Node) := [("log", .mapping [("level", .integer 3),
      ("file", .string "a.txt")]), ("cache", .integer 4)]
    let source : Node := .mapping [("port", .integer 80), ("cache", .mapping []),
      ("log", .mapping [("color", .bool true), ("level", .null)])]
    let result : Node := .mapping [("log", .mapping [("level", .null), ("file", .string "a.txt"),
      ("color", .bool true)]), ("cache", .mapping []), ("port", .integer 80)]
    Parsed source ∧ Parsed (.mapping entries) ∧
      decodeInto source (.mapping entries) = (result, .ok ()) ∧
      result.at? (.ofNames ["log", "level"] true) = .ok .null ∧
      result.at? (.ofNames ["log", "file"] true) = .ok (.string "a.txt") := by
  intro entries source result
  have hsource : Parsed source := by
    refine parsed_mapping (by simp [Entries.Distinct, Entries.keys]) fun e he => ?_
    simp only [List.mem_cons, List.not_mem_nil, or_false] at he
    rcases he with rfl | rfl | rfl
    · exact parsed_scalar _
    · exact parsed_mapping .nil fun e he => absurd he List.not_mem_nil
    · refine parsed_mapping (by simp [Entries.Distinct, Entries.keys]) fun e he => ?_
      simp only [List.mem_cons, List.not_mem_nil, or_false] at he
      rcases he with rfl | rfl
      · exact parsed_scalar _
      · exact parsed_null
  have hentries : Parsed (.mapping entries) := by
    refine parsed_mapping (by simp [entries, Entries.Distinct, Entries.keys]) fun e he => ?_
    simp only [entries, List.mem_cons, List.not_mem_nil, or_false] at he
    rcases he with rfl | rfl
    · refine parsed_mapping (by simp [Entries.Distinct, Entries.keys]) fun e he => ?_
      simp only [List.mem_cons, List.not_mem_nil, or_false] at he
      rcases he with rfl | rfl
      · exact parsed_scalar _
      · exact parsed_scalar _
    · exact parsed_scalar _
  obtain ⟨_, hmerge, _, hpaths⟩ := decodeInto_merges hsource hentries
  obtain ⟨hleaf, hmissing⟩ := hpaths _ rfl
  have hresult : decodeInto source (.mapping entries) = (result, .ok ()) := hmerge rfl
  rw [hresult] at hleaf hmissing
  refine ⟨hsource, hentries, hresult, ?_, ?_⟩
  · exact hleaf ["log", "level"] true .null rfl fun others h => by cases h
  · exact hmissing ["log"] "file" [] true _ _ rfl (by simp [Entries.keys]) rfl

end Polydoc
