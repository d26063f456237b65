/-
  Proofs/Decode/Spelling.lean --- how the members of a source are spelled does not matter.

  Where a mapping is decoded as a record, the decoder asks for its members by the names of the
  declared fields, without regard to letter case.  So the order of the entries, the letter case of
  their keys and the entries that no field asks for leave no trace, as long as no two keys stand for
  the same name.
-/
import Mathlib.Data.List.Nodup
import Polydoc.Proofs.Decode.Steps

set_option autoImplicit false

namespace Polydoc

/-! ## Spellings -/

/-- Whether no two keys have the same lower-case form. -/
def ClashFree (entries : List (String × Node)) : Prop :=
  ((Entries.keys entries).map Text.lowercase).Nodup

instance (entries : List (String × Node)) : Decidable (ClashFree entries) :=
  inferInstanceAs (Decidable (List.Nodup _))

/-- Whether a key stands for one of the declared fields, in some letter case. -/
def NamesField (fields : List (String × Kind)) (key : String) : Prop :=
  ∃ f ∈ fields, Text.lowercase key = Text.lowercase f.1

instance (fields : List (String × Kind)) (key : String) : Decidable (NamesField fields key) :=
  inferInstanceAs (Decidable (∃ f ∈ fields, Text.lowercase key = Text.lowercase f.1))

/-- Entries without clashes that are some given ones, in another order, and others that stand for no
field. -/
structure ReducesTo (fields : List (String × Kind)) (entries kept : List (String × Node)) : Prop where
  clashFree : ClashFree entries
  split : ∃ others, entries.Perm (kept ++ others) ∧ ∀ e ∈ others, ¬ NamesField fields e.1

/-- Entries that become others: those that are kept stand beside what they become, under a key that
may differ in letter case. -/
structure Rekeyed (fields : List (String × Kind)) (members others : List (String × Node))
    (kept : List ((String × Node) × (String × Node))) : Prop where
  before : ReducesTo fields members (kept.map Prod.fst)
  after : ReducesTo fields others (kept.map Prod.snd)
  recase : ∀ e ∈ kept, Text.lowercase e.1.1 = Text.lowercase e.2.1

/-- Two sources that differ, where mappings are decoded as records, in the order of the entries, in
the letter case of the keys and in entries that stand for no field.  What is decoded otherwise is
the same in both. -/
inductive Respelled : Kind → Node → Node → Prop where
  | same (kind : Kind) (source : Node) : Respelled kind source source
  | optional {inner : Kind} {s t : Node} (h : Respelled inner s t) : Respelled (.optional inner) s t
  | sequence {item : Kind} {s t : Node} (items : List (Node × Node))
      (before : s.core = .sequence (items.map Prod.fst))
      (after : t.core = .sequence (items.map Prod.snd))
      (each : ∀ e ∈ items, Respelled item e.1 e.2) : Respelled (.sequence item) s t
  | record {name : String} {fields : List (String × Kind)} {s t : Node}
      {members others : List (String × Node)} (kept : List ((String × Node) × (String × Node)))
      (before : s.core = .mapping members) (after : t.core = .mapping others)
      (keys : Rekeyed fields members others kept)
      (each : ∀ e ∈ kept, ∀ f ∈ fields, Text.lowercase e.1.1 = Text.lowercase f.1 →
        Respelled f.2 e.1.2 e.2.2) : Respelled (.record name fields) s t

/-- A spelling does not make a null of anything else. -/
theorem Respelled.isNull_eq {kind : Kind} {s t : Node} (h : Respelled kind s t) :
    s.isNull = t.isNull := by
  induction h with
  | same => rfl
  | optional _ ih => exact ih
  | sequence items before after => rw [Node.isNull, Node.isNull, before, after]
  | record kept before after => rw [Node.isNull, Node.isNull, before, after]

/-! ## Members that are found -/

section Members

variable {fields : List (String × Kind)} {entries members others : List (String × Node)}

/-- Without clashes, a member is found under a name exactly if its key differs from the name in
letter case alone. -/
theorem ClashFree.find?_eq_some_iff (h : ClashFree entries) {name : String} {v : Node} :
    Entries.find? name entries = some v ↔
      ∃ key, (key, v) ∈ entries ∧ Text.lowercase key = Text.lowercase name := by
  constructor
  · intro hv
    obtain ⟨key, hkey, hget⟩ := Option.bind_eq_some_iff.mp hv
    exact ⟨key, Entries.mem_of_get? hget, Entries.lowercase_of_resolve? hkey⟩
  · rintro ⟨key, hmem, hname⟩
    have hkeys : key ∈ Entries.keys entries := List.mem_map_of_mem hmem
    obtain ⟨found, hfound⟩ := Entries.exists_resolve? hkeys hname
    have hsame : Text.lowercase found = Text.lowercase key := by
      rw [Entries.lowercase_of_resolve? hfound, hname]
    have heq : found = key :=
      List.inj_on_of_nodup_map h (Entries.mem_keys_of_resolve? hfound) hkeys hsame
    rw [Entries.find?, hfound, heq]
    exact Entries.get?_of_mem (List.Nodup.of_map Text.lowercase h) hmem

/-- A member of a field is found among the entries that are kept. -/
theorem ReducesTo.find?_eq_some_iff {kept : List (String × Node)} (h : ReducesTo fields entries kept)
    {f : String × Kind} (hf : f ∈ fields) {v : Node} :
    Entries.find? f.1 entries = some v ↔
      ∃ key, (key, v) ∈ kept ∧ Text.lowercase key = Text.lowercase f.1 := by
  obtain ⟨others, hperm, hothers⟩ := h.split
  rw [h.clashFree.find?_eq_some_iff]
  refine exists_congr fun key => and_congr_left fun hkey => ?_
  rw [hperm.mem_iff, List.mem_append]
  exact or_iff_left fun hmem => hothers _ hmem ⟨f, hf, hkey⟩

/-- A field has a member in both spellings or in neither. -/
theorem Rekeyed.rel_lookup {kept : List ((String × Node) × (String × Node))}
    (h : Rekeyed fields members others kept) {f : String × Kind} (hf : f ∈ fields)
    {R : Node → Node → Prop}
    (each : ∀ e ∈ kept, Text.lowercase e.1.1 = Text.lowercase f.1 → R e.1.2 e.2.2) :
    Option.Rel R (Decode.lookup (.mapping members) f.1) (Decode.lookup (.mapping others) f.1) := by
  have hbefore {v : Node} := h.before.find?_eq_some_iff hf (v := v)
  have hafter {v : Node} := h.after.find?_eq_some_iff hf (v := v)
  unfold Decode.lookup
  dsimp only
  cases hs : Entries.find? f.1 members with
  | some v =>
    obtain ⟨key, hmem, hkey⟩ := hbefore.mp hs
    obtain ⟨⟨first, key', n⟩, he, rfl⟩ := List.mem_map.mp hmem
    have hfound : Entries.find? f.1 others = some n :=
      hafter.mpr ⟨key', List.mem_map_of_mem he, (h.recase _ he).symm.trans hkey⟩
    rw [hfound]
    exact .some (each _ he hkey)
  | none =>
    cases ht : Entries.find? f.1 others with
    | none => exact .none
    | some w =>
      obtain ⟨key', hmem, hkey⟩ := hafter.mp ht
      obtain ⟨⟨⟨key, m⟩, second⟩, he, rfl⟩ := List.mem_map.mp hmem
      have hfound : Entries.find? f.1 members = some m :=
        hbefore.mpr ⟨key, List.mem_map_of_mem he, (h.recase _ he).trans hkey⟩
      rw [hs] at hfound
      cases hfound

end Members

namespace Decode

/-! ## Fields and items one after another -/

section Congruence

variable {s t : Node} {place : Place}

/-- Whether two sources are decoded alike into fresh values of a kind. -/
def DecodedAlike (kind : Kind) (s t : Node) : Prop :=
  ∀ place, value kind s kind.zero place = value kind t kind.zero place

theorem sequence_congr {item : Kind} {items : List (Node × Node)}
    (h : ∀ e ∈ items, DecodedAlike item e.1 e.2) (index : Nat) :
    sequence item (items.map Prod.fst) place index =
      sequence item (items.map Prod.snd) place index := by
  induction items generalizing index with
  | nil => rfl
  | cons e rest ih =>
    rw [List.map_cons, List.map_cons, sequence_cons, sequence_cons, h e List.mem_cons_self,
      ih fun e he => h e (List.mem_cons_of_mem _ he)]

/-- Fresh fields are filled alike, if their members are found and decoded alike. -/
theorem fields_congr {type : RecordType} {todo : List (String × Kind)}
    (hd : Entries.Distinct todo)
    (h : ∀ f ∈ todo, Option.Rel (DecodedAlike f.2) (lookup s f.1) (lookup t f.1)) :
    ∀ {held : List (String × Node)}, (∀ f ∈ todo, slotOf type f.1 held = f.2.zero) →
      fields s type todo held place = fields t type todo held place := by
  induction todo with
  | nil =>
    intro held _
    rw [fields_nil, fields_nil]
  | cons first rest ih =>
    intro held hzero
    obtain ⟨name, kind⟩ := first
    obtain ⟨hname, hrest⟩ := List.nodup_cons.mp hd
    have hlater : ∀ {held : List (String × Node)},
        (∀ f ∈ rest, slotOf type f.1 held = f.2.zero) →
          fields s type rest held place = fields t type rest held place :=
      ih hrest fun f hf => h f (List.mem_cons_of_mem _ hf)
    have hfresh : ∀ f ∈ rest, slotOf type f.1 held = f.2.zero :=
      fun f hf => hzero f (List.mem_cons_of_mem _ hf)
    have hfirst : slotOf type name held = kind.zero := hzero _ List.mem_cons_self
    -- what is decoded into the first field leaves the others fresh
    have hput (decoded : Node) : ∀ f ∈ rest,
        slotOf type f.1 (Entries.put name decoded held) = f.2.zero := by
      intro f hf
      have hmem : f.1 ∈ Entries.keys rest := List.mem_map_of_mem hf
      have hne : name ≠ f.1 := fun heq => hname (heq ▸ hmem)
      rw [← hfresh f hf, slotOf, slotOf, Entries.get?_put, if_neg hne]
    have hrel := h _ List.mem_cons_self
    dsimp only at hrel
    generalize hs : lookup s name = m at hrel
    generalize ht : lookup t name = n at hrel
    cases hrel with
    | none =>
      rw [fields_cons_none hs, fields_cons_none ht]
      exact hlater hfresh
    | @some m n halike =>
      rw [fields_cons_some hs, fields_cons_some ht, hfirst, halike]
      cases value kind n kind.zero (place ++ [.member name]) with
      | mk decoded result =>
        cases result with
        | error e => rfl
        | ok _ => exact hlater (hput decoded)

end Congruence

/-! ## Fresh records -/

theorem slotOf_zeroFields (type : RecordType) {fields : List (String × Kind)}
    (hd : Entries.Distinct fields) {f : String × Kind} (hf : f ∈ fields) :
    slotOf type f.1 (Kind.zeroFields fields) = f.2.zero := by
  rw [slotOf, Kind.get?_zeroFields, Entries.get?_of_mem hd hf]
  rfl

/-- Two spellings are decoded alike, whatever the kind. -/
theorem decodedAlike_of_respelled {kind : Kind} {s t : Node} (h : Respelled kind s t) :
    kind.Distinct → DecodedAlike kind s t := by
  induction h with
  | same kind source =>
    intro _ place
    rfl
  | @optional inner s t h ih =>
    intro hd place
    cases hnull : t.isNull with
    | true => rw [value_null (h.isNull_eq.trans hnull), value_null hnull]
    | false => rw [value_optional (h.isNull_eq.trans hnull), value_optional hnull, ih hd]
  | sequence items before after _ ih =>
    intro hd place
    rw [value_sequence before, value_sequence after, sequence_congr fun e he => ih e he hd]
  | @record _ fields s t members others kept before after keys _ ih =>
    intro hd place
    obtain ⟨hnames, hkinds⟩ := hd
    have hmembers : ∀ f ∈ fields, Option.Rel (DecodedAlike f.2) (lookup (.mapping members) f.1)
        (lookup (.mapping others) f.1) := by
      intro f hf
      refine keys.rel_lookup hf fun e he hname => ?_
      exact ih e he f hf hname (hkinds.get? (Entries.get?_of_mem hnames hf))
    have hnull : s.isNull = false := by rw [Node.isNull, before]
    have hnull' : t.isNull = false := by rw [Node.isNull, after]
    rw [value_zero_record hnull hnames, value_zero_record hnull' hnames, before, after,
      record_of_hasMembers rfl, record_of_hasMembers rfl,
      fields_congr hnames hmembers fun f hf => slotOf_zeroFields _ hnames hf]

end Decode

/-- **Decoding into a fresh record ignores how the members of a source are spelled.**  Two sources
may differ in every mapping that is decoded as a record, inside of sequences and of optional values
too: in the order of the entries, in the letter case of the keys, and in entries that stand for no
field.  If no two keys of such a mapping have the same lower-case form, then both leave the same
target, and both succeed or both end with the same error. -/
theorem decodeInto_respelled {t : RecordType} (ht : t.Distinct) {s₁ s₂ : Node}
    (h : Respelled (.ofType t) s₁ s₂) : decodeInto s₁ t.zero = decodeInto s₂ t.zero := by
  rw [decodeInto_zero, decodeInto_zero]
  exact Decode.decodedAlike_of_respelled h ht []

/-- Below a sequence and below an optional value, keys change their letter case and their order, and
entries without a field come and go. -/
theorem decodeInto_respelled_order :
    let order : RecordType := ⟨"Order", [("id", .integer),
      ("lines", .sequence (.record "Line" [("count", .integer)])),
      ("buyer", .optional (.record "Person" [("name", .string)]))]⟩
    let line₁ : Node := .mapping [("count", .integer 2), ("unit", .string "kg")]
    let line₂ : Node := .mapping [("Count", .integer 2)]
    let buyer₁ : Node := .mapping [("name", .string "Ann")]
    let buyer₂ : Node := .mapping [("NAME", .string "Ann")]
    let s₁ : Node := .mapping [("id", .integer 7), ("lines", .sequence [line₁]), ("buyer", buyer₁)]
    let s₂ : Node := .mapping [("note", .string "late"), ("Buyer", buyer₂),
      ("LINES", .sequence [line₂]), ("id", .integer 7)]
    order.Distinct ∧ Respelled (.ofType order) s₁ s₂ ∧
      decodeInto s₁ order.zero = decodeInto s₂ order.zero := by
  intro order line₁ line₂ buyer₁ buyer₂ s₁ s₂
  have hdistinct : order.Distinct := by
    simp [order, RecordType.Distinct, Kind.ofType, Kind.Distinct, Kind.FieldsDistinct,
      Entries.Distinct, Entries.keys]
  have hline : Respelled (.record "Line" [("count", .integer)]) line₁ line₂ := by
    refine .record [(("count", .integer 2), ("Count", .integer 2))] rfl rfl
      ⟨⟨by decide +kernel, [("unit", .string "kg")], .refl _, by decide +kernel⟩,
        ⟨by decide +kernel, [], .refl _, by decide +kernel⟩, by decide +kernel⟩ ?_
    intro e he f _ _
    cases List.mem_singleton.mp he
    exact .same _ _
  have hbuyer : Respelled (.record "Person" [("name", .string)]) buyer₁ buyer₂ := by
    refine .record [(("name", .string "Ann"), ("NAME", .string "Ann"))] rfl rfl
      ⟨⟨by decide +kernel, [], .refl _, by decide +kernel⟩,
        ⟨by decide +kernel, [], .refl _, by decide +kernel⟩, by decide +kernel⟩ ?_
    intro e he f _ _
    cases List.mem_singleton.mp he
    exact .same _ _
  have hrespelled : Respelled (.ofType order) s₁ s₂ := by
    refine .record [(("id", .integer 7), ("id", .integer 7)),
        (("lines", .sequence [line₁]), ("LINES", .sequence [line₂])),
        (("buyer", buyer₁), ("Buyer", buyer₂))] rfl rfl
      ⟨⟨by decide +kernel, [], .refl _, by decide +kernel⟩,
        ⟨by decide +kernel, [("note", .string "late")], (List.reverse_perm _).symm,
          by decide +kernel⟩, by decide +kernel⟩ ?_
    intro e he f hf hname
    simp only [order, List.mem_cons, List.not_mem_nil, or_false] at he hf
    rcases he with rfl | rfl | rfl <;> rcases hf with rfl | rfl | rfl
    · exact .same _ _
    · exact absurd hname (by decide +kernel)
    · exact absurd hname (by decide +kernel)
    · exact absurd hname (by decide +kernel)
    · refine .sequence [(line₁, line₂)] rfl rfl fun e he => ?_
      cases List.mem_singleton.mp he
      exact hline
    · exact absurd hname (by decide +kernel)
    · exact absurd hname (by decide +kernel)
    · exact absurd hname (by decide +kernel)
    · exact .optional hbuyer
  exact ⟨hdistinct, hrespelled, decodeInto_respelled hdistinct hrespelled⟩

end Polydoc
