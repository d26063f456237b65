/-
  Proofs/Yaml/Import.lean --- what becomes of the entries of YAML mappings.

  The keys of a document are texts, and a key that is a number or a boolean stands for its written
  form.  No two different keys of a mapping collapse into one, but for a text that spells a number
  or a boolean beside it; where there is none, the document of a value has every entry of the value.
-/
import Polydoc.Proofs.Document.Parsed
import Polydoc.Proofs.Yaml.KeyText

set_option autoImplicit false

namespace Polydoc

namespace Yaml

/-! ## Values and their documents -/

/-- The first value is the second one or stands somewhere in it, keys apart. -/
inductive Value.Part (w : Value) : Value → Prop where
  | here : Value.Part w w
  | item {v : Value} {items : List Value} (mem : v ∈ items) (inner : Value.Part w v) :
      Value.Part w (.sequence items)
  | entry {k v : Value} {entries : List (Value × Value)} (mem : (k, v) ∈ entries)
      (inner : Value.Part w v) : Value.Part w (.mapping entries)
  | tagged {tag : String} {v : Value} (inner : Value.Part w v) : Value.Part w (.tagged tag v)

/-- In every mapping of a value, the keys are different from one another. -/
def Value.Keyed (v : Value) : Prop :=
  ∀ entries, Value.Part (.mapping entries) v →
    entries.Pairwise fun e f => Value.same e.1 f.1 = false

/-- In no mapping of a value, a key that is a text is the written form of another key, a number or a
boolean. -/
def Value.Unspelled (v : Value) : Prop :=
  ∀ entries, Value.Part (.mapping entries) v → ∀ e ∈ entries, ∀ f ∈ entries, ¬ Spells e.1 f.1

/-- A document has everything that a value has: the items of a sequence, one by one, and the entries
of a mapping, one by one, each under the text of its own key, of which no two are the same.  Tags
are left out. -/
inductive Mirrors : Value → Node → Prop where
  | null : Mirrors .null .null
  | bool (b : Bool) : Mirrors (.bool b) (.bool b)
  | number (a : Number) : Mirrors (.number a) (.scalar a.scalar)
  | string (s : String) : Mirrors (.string s) (.string s)
  | sequence {vs : List Value} {ns : List Node} (items : List.Forall₂ Mirrors vs ns) :
      Mirrors (.sequence vs) (.sequence ns)
  | mapping {entries : List (Value × Value)} {es : List (String × Node)}
      (keys : entries.map (fun e => keyText e.1) = es.map fun e => .ok e.1)
      (values : List.Forall₂ Mirrors (entries.map Prod.snd) (es.map Prod.snd))
      (distinct : Entries.Distinct es) : Mirrors (.mapping entries) (.mapping es)
  | tagged {v : Value} {n : Node} (tag : String) (inner : Mirrors v n) : Mirrors (.tagged tag v) n

section Entries

variable {entries : List (Value × Value)} {es : List (String × Node)}

/-- Distinct entries whose keys do not spell one another keep their texts apart. -/
theorem distinct_of_keys (hkeys : entries.map (fun e => keyText e.1) = es.map fun e => .ok e.1)
    (hdifferent : entries.Pairwise fun e f => Value.same e.1 f.1 = false)
    (hspell : ∀ e ∈ entries, ∀ f ∈ entries, ¬ Spells e.1 f.1) : Entries.Distinct es := by
  induction entries generalizing es with
  | nil =>
    rw [List.map_nil, eq_comm, List.map_eq_nil_iff] at hkeys
    rw [hkeys]
    exact .nil
  | cons e rest ih =>
    cases es with
    | nil => cases hkeys
    | cons e' more =>
      rw [List.map_cons, List.map_cons, List.cons.injEq] at hkeys
      obtain ⟨hfirst, hothers⟩ := List.pairwise_cons.mp hdifferent
      refine List.nodup_cons.mpr ⟨fun hmem => ?_, ih hkeys.2 hothers fun a ha b hb =>
        hspell a (List.mem_cons_of_mem _ ha) b (List.mem_cons_of_mem _ hb)⟩
      -- another entry with the text of the first key
      obtain ⟨f', hf', htext⟩ := List.mem_map.mp hmem
      have hok : (.ok f'.1 : Except Error String) ∈ rest.map fun e => keyText e.1 :=
        hkeys.2 ▸ List.mem_map_of_mem hf'
      obtain ⟨f, hf, hkey⟩ := List.mem_map.mp hok
      rw [htext] at hkey
      rcases same_of_keyText hkeys.1 hkey with hsame | hspells | hspells
      · rw [hfirst f hf] at hsame
        cases hsame
      · exact hspell e List.mem_cons_self f (List.mem_cons_of_mem _ hf) hspells
      · exact hspell f (List.mem_cons_of_mem _ hf) e List.mem_cons_self hspells

theorem keys_of_toEntries (h : toEntries entries = .ok es) :
    entries.map (fun e => keyText e.1) = es.map fun e => .ok e.1 := by
  induction entries generalizing es with
  | nil =>
    cases h
    rfl
  | cons e rest ih =>
    obtain ⟨k, v⟩ := e
    rw [toEntries] at h
    split at h
    · cases h
    next key hkey =>
    split at h
    · cases h
    next n hn =>
    obtain ⟨more, hmore, rfl⟩ := map_eq_ok_iff.mp h
    rw [List.map_cons, List.map_cons, hkey, ih hmore]

end Entries

/-! ## Values are mirrored -/

section Parts

variable {u v w : Value}

theorem Value.Part.trans (h : Value.Part u v) (h' : Value.Part v w) :
    Value.Part u w := by
  induction h' with
  | here => exact h
  | item mem _ ih => exact .item mem ih
  | entry mem _ ih => exact .entry mem ih
  | tagged _ ih => exact .tagged ih

/-- A value whose mappings have different keys, none of which spells another. -/
structure Value.Clear (v : Value) : Prop where
  keyed : v.Keyed
  unspelled : v.Unspelled

theorem Value.Clear.part (h : v.Clear) (hp : Value.Part w v) : w.Clear :=
  ⟨fun entries he => h.keyed entries (he.trans hp),
    fun entries he => h.unspelled entries (he.trans hp)⟩

end Parts

mutual

theorem mirrors_of_toNode : (v : Value) → {n : Node} → v.Clear → toNode v = .ok n → Mirrors v n
  | .null, _, _, h => by
    cases h
    exact .null
  | .bool b, _, _, h => by
    cases h
    exact .bool b
  | .number a, _, _, h => by
    cases h
    exact .number a
  | .string s, _, _, h => by
    cases h
    exact .string s
  | .sequence items, _, hc, h => by
    rw [toNode] at h
    obtain ⟨ns, hitems, rfl⟩ := map_eq_ok_iff.mp h
    exact .sequence (mirrors_of_toNodes items (fun v hv => hc.part (.item hv .here)) hitems)
  | .mapping entries, _, hc, h => by
    rw [toNode] at h
    obtain ⟨es, hentries, rfl⟩ := map_eq_ok_iff.mp h
    have hkeys := keys_of_toEntries hentries
    have hd := distinct_of_keys hkeys (hc.keyed entries .here) (hc.unspelled entries .here)
    rw [Entries.ofList_of_distinct hd]
    exact .mapping hkeys
      (mirrors_of_toEntries entries (fun e he => hc.part (.entry he .here)) hentries) hd
  | .tagged tag v, _, hc, h => .tagged tag (mirrors_of_toNode v (hc.part (.tagged .here)) h)

theorem mirrors_of_toNodes : (items : List Value) → {ns : List Node} →
    (∀ v ∈ items, v.Clear) → toNodes items = .ok ns → List.Forall₂ Mirrors items ns
  | [], _, _, h => by
    cases h
    exact .nil
  | v :: rest, _, hc, h => by
    rw [toNodes] at h
    split at h
    · cases h
    · rename_i first hfirst
      obtain ⟨more, hmore, rfl⟩ := map_eq_ok_iff.mp h
      exact .cons (mirrors_of_toNode v (hc v List.mem_cons_self) hfirst)
        (mirrors_of_toNodes rest (fun w hw => hc w (List.mem_cons_of_mem _ hw)) hmore)

theorem mirrors_of_toEntries : (entries : List (Value × Value)) → {es : List (String × Node)} →
    (∀ e ∈ entries, e.2.Clear) → toEntries entries = .ok es →
    List.Forall₂ Mirrors (entries.map Prod.snd) (es.map Prod.snd)
  | [], _, _, h => by
    cases h
    exact .nil
  | (k, v) :: rest, _, hc, h => by
    rw [toEntries] at h
    split at h
    · cases h
    · split at h
      · cases h
      · rename_i first hfirst
        obtain ⟨more, hmore, rfl⟩ := map_eq_ok_iff.mp h
        exact .cons (mirrors_of_toNode v (hc (k, v) List.mem_cons_self) hfirst)
          (mirrors_of_toEntries rest (fun e he => hc e (List.mem_cons_of_mem _ he)) hmore)

end

/-! ## Nothing else is mirrored -/

theorem exists_mirrors_of_mem {vs : List Value} {ns : List Node} {v : Value}
    (h : List.Forall₂ Mirrors vs ns) (hv : v ∈ vs) : ∃ n, Mirrors v n := by
  induction h with
  | nil => cases hv
  | cons hfirst _ ih =>
    rcases List.mem_cons.mp hv with rfl | hrest
    · exact ⟨_, hfirst⟩
    · exact ih hrest

theorem Mirrors.part {v w : Value} (hp : Value.Part w v) {n : Node} (h : Mirrors v n) :
    ∃ m, Mirrors w m := by
  induction hp generalizing n with
  | here => exact ⟨n, h⟩
  | item mem _ ih =>
    cases h with
    | sequence items =>
      obtain ⟨m, hm⟩ := exists_mirrors_of_mem items mem
      exact ih hm
  | entry mem _ ih =>
    cases h with
    | mapping _ values _ =>
      obtain ⟨m, hm⟩ := exists_mirrors_of_mem values (List.mem_map_of_mem mem)
      exact ih hm
  | tagged _ ih =>
    cases h with
    | tagged _ inner => exact ih inner

/-- Where a key spells another one, two entries have one text. -/
theorem Mirrors.unspelled {v : Value} {n : Node} (h : Mirrors v n) : v.Unspelled := by
  intro entries hp e he f hf hspells
  obtain ⟨m, hm⟩ := h.part hp
  cases hm with
  | @mapping _ es keys _ distinct =>
    have hnodup : (entries.map fun e => keyText e.1).Nodup := by
      have hok : (es.map fun e => (.ok e.1 : Except Error String)) =
          (Entries.keys es).map .ok := by
        rw [Entries.keys, List.map_map]
        rfl
      rw [keys, hok]
      exact distinct.map fun a b hab => Except.ok.inj hab
    obtain ⟨s, hs, htext, hother⟩ := hspells
    have hkey : keyText e.1 = keyText f.1 := by rw [hs, htext, keyText]
    have hsame : e = f := List.inj_on_of_nodup_map hnodup he hf hkey
    exact hother s (hsame ▸ hs)

/-- **Nothing is lost unless a text spells another key.**  Let the keys of each mapping of a YAML
value be different from one another.  Then the value has no document, because some key has no text;
or it has one.  That mirrors the value, with exactly one entry for each entry of the value, in the
same order and under the text of its own key, at every depth, just if in no mapping a key that is a
text is the written form of a number or a boolean that is a key beside it. -/
theorem toNode_mirrors {v : Value} (hv : v.Keyed) :
    (∃ e, toNode v = .error e) ∨ ∃ n, toNode v = .ok n ∧ (Mirrors v n ↔ v.Unspelled) := by
  cases h : toNode v with
  | error e => exact .inl ⟨e, rfl⟩
  | ok n => exact .inr ⟨n, rfl, fun hm => hm.unspelled, fun hu => mirrors_of_toNode v ⟨hv, hu⟩ h⟩

/-! Values of which each mapping has different keys -/

theorem keyed_null : Value.Keyed .null := by
  intro entries hp
  cases hp

theorem keyed_string (s : String) : Value.Keyed (.string s) := by
  intro entries hp
  cases hp

theorem keyed_tagged {v : Value} (tag : String) (h : v.Keyed) : Value.Keyed (.tagged tag v) := by
  intro entries hp
  cases hp with
  | tagged inner => exact h entries inner

theorem keyed_mapping {entries : List (Value × Value)}
    (hd : entries.Pairwise fun e f => Value.same e.1 f.1 = false)
    (h : ∀ e ∈ entries, e.2.Keyed) : Value.Keyed (.mapping entries) := by
  intro others hp
  cases hp with
  | here => exact hd
  | entry mem inner => exact h _ mem others inner

/-- A mapping with an integer, a float, and texts for keys, and one with a boolean below it. -/
theorem toNode_mirrors_stable :
    let inner : Value := .tagged "size" (.mapping [(.bool true, .null)])
    let v : Value := .mapping [(.number (.integer 1), .string "one"),
      (.number (.float (Binary64.ofInt 1)), inner), (.string "true", .null)]
    v.Keyed ∧ toNode v = .ok (.mapping [("1", .string "one"),
        ("1.0", .mapping [("true", .null)]), ("true", .null)]) ∧
      ((∃ e, toNode v = .error e) ∨ ∃ n, toNode v = .ok n ∧ (Mirrors v n ↔ v.Unspelled)) := by
  intro inner v
  have hkeyed : v.Keyed := by
    refine keyed_mapping (by decide +kernel) fun e he => ?_
    simp only [List.mem_cons, List.not_mem_nil, or_false] at he
    rcases he with rfl | rfl | rfl
    · exact keyed_string _
    · exact keyed_tagged _ (keyed_mapping (List.pairwise_singleton _ _) fun e he =>
        List.mem_singleton.mp he ▸ keyed_null)
    · exact keyed_null
  have htext : (Number.float (Binary64.ofInt 1)).text = "1.0" := by decide +kernel
  refine ⟨hkeyed, ?_, toNode_mirrors hkeyed⟩
  simp only [v, inner, toNode, toEntries, keyText, htext]
  rfl

/-- An integer and the text that spells it are different keys, and collapse into one: the document
has the value of the second entry alone. -/
theorem spelled_key_collapses :
    let v : Value := .mapping [(.number (.integer 1), .string "a"), (.string "1", .string "b")]
    v.Keyed ∧ toNode v = .ok (.mapping [("1", .string "b")]) ∧
      ¬ Mirrors v (.mapping [("1", .string "b")]) := by
  intro v
  refine ⟨keyed_mapping (by decide +kernel) fun e he => ?_, rfl,
    fun h : Mirrors (.mapping [_, _]) _ => ?_⟩
  · simp only [List.mem_cons, List.not_mem_nil, or_false] at he
    rcases he with rfl | rfl <;> exact keyed_string _
  · cases h with
    | mapping keys _ _ => cases keys

end Yaml

end Polydoc
