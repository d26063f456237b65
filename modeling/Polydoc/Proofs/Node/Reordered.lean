/-
  Proofs/Node/Reordered.lean --- equal documents are those that differ at most in the order of the
  keys of mappings.

  Dictionaries are compared by looking up the keys of one in the other.  Where no key stands twice
  that is the same as having the same keys, in some order, with equal values under each; and records
  of one type have their names in one order.  So equality is an equivalence, and names lead in equal
  documents to equal members.
-/
import Mathlib.Data.List.Perm.Subperm
import Polydoc.Node.Equality
import Polydoc.Proofs.Navigation.Congruence
import Polydoc.Proofs.Node.Exact

set_option autoImplicit false

namespace Polydoc

namespace Node

/-! ## Documents as they are made -/

/-- A document as it is made: every record has the names of its type, and no mapping has a key
twice. -/
structure Formed (n : Node) : Prop where
  exact : Exact n
  keyed : ∀ entries, Part (.mapping entries) n → Entries.Distinct entries

section Formed

variable {n c d : Node} {entries held : List (String × Node)} {type : RecordType}

theorem Formed.part {m : Node} (h : Formed n) (hp : Part m n) : Formed m :=
  ⟨h.exact.part hp, fun entries he => h.keyed entries (he.trans hp)⟩

/-- What the readers make is formed. -/
theorem Parsed.formed (h : Parsed n) : Formed n :=
  ⟨exact_of_recordFree h.plain.recordFree, h.keyed⟩

theorem formed_mapping_iff :
    Formed (.mapping entries) ↔ Entries.Distinct entries ∧ ∀ e ∈ entries, Formed e.2 := by
  constructor
  · exact fun h => ⟨h.keyed entries .here, fun e he => h.part (.entry he .here)⟩
  · rintro ⟨hd, hvalues⟩
    refine ⟨exact_mapping fun e he => (hvalues e he).exact, fun others hp => ?_⟩
    cases hp with
    | here => exact hd
    | entry mem inner => exact (hvalues _ mem).keyed others inner

theorem formed_record_iff :
    Formed (.record type held) ↔ Entries.keys held = type.names ∧ ∀ e ∈ held, Formed e.2 := by
  constructor
  · exact fun h => ⟨h.exact type held .here, fun e he => h.part (.field he .here)⟩
  · rintro ⟨hkeys, hvalues⟩
    refine ⟨exact_record_iff.mpr ⟨hkeys, fun e he => (hvalues e he).exact⟩, fun others hp => ?_⟩
    cases hp with
    | field mem inner => exact (hvalues _ mem).keyed others inner

theorem Formed.indirect (h : Formed n) : Formed (.indirect n) := by
  refine ⟨exact_indirect h.exact, fun entries hp => ?_⟩
  cases hp with
  | layer inner => exact h.keyed entries inner

theorem Formed.withCore (h : Formed n) (hc : Formed c) : Formed (n.withCore c) := by
  induction n using Node.core.induct with
  | case1 inner ih => exact (ih (h.part (.layer .here))).indirect
  | case2 n hn =>
    cases n with
    | indirect inner => exact absurd rfl (hn inner)
    | _ => exact hc

/-- No field of a record stands twice. -/
theorem Formed.distinct (h : Formed (.record type held)) : Entries.Distinct held := by
  rw [Entries.Distinct, (formed_record_iff.mp h).1]
  exact type.nodup_names

theorem Formed.setMember (h : Formed n) (hc : Formed c) (name : String) :
    Formed (n.setMember name c) := by
  have hcore := h.part (part_core n)
  unfold Node.setMember
  refine h.withCore ?_
  generalize n.core = d at hcore ⊢
  cases d with
  | mapping entries =>
    obtain ⟨hd, hvalues⟩ := formed_mapping_iff.mp hcore
    dsimp only
    split
    · exact formed_mapping_iff.mpr
        ⟨Entries.distinct_put name c hd, Entries.forall_mem_put hvalues hc⟩
    · exact hcore
  | record type held =>
    obtain ⟨hkeys, hvalues⟩ := formed_record_iff.mp hcore
    dsimp only
    split
    · rename_i key hkey
      rw [formed_record_iff, Entries.keys_put_of_mem (Entries.mem_keys_of_resolve? hkey)]
      exact ⟨hkeys, Entries.forall_mem_put hvalues hc⟩
    · exact hcore
  | _ => exact hcore

end Formed

mutual

theorem formed_zero : (kind : Kind) → Formed kind.zero
  | .record name fields => by
    have hfields := formed_zero_of_mem fields
    refine formed_record_iff.mpr ⟨exact_zero (.record name fields) _ _ .here, fun e he => ?_⟩
    obtain ⟨kind, hmem, heq⟩ := Kind.mem_zeroFields (Entries.mem_of_mem_ofList he)
    rw [heq]
    exact hfields _ hmem
  | .bool => (parsed_scalar _).formed
  | .integer => (parsed_scalar _).formed
  | .float => (parsed_scalar _).formed
  | .string => (parsed_scalar _).formed
  | .any => parsed_null.formed
  | .optional _ => parsed_null.formed
  | .mapping => formed_mapping_iff.mpr ⟨.nil, fun _ he => absurd he List.not_mem_nil⟩
  | .sequence _ => (parsed_sequence fun _ hn => absurd hn List.not_mem_nil).formed

theorem formed_zero_of_mem : (fields : List (String × Kind)) → ∀ e ∈ fields, Formed e.2.zero
  | [] => fun e he => by cases he
  | (key, kind) :: rest => by
    have hkind := formed_zero kind
    have hrest := formed_zero_of_mem rest
    intro e he
    rcases List.mem_cons.mp he with rfl | hmem
    · exact hkind
    · exact hrest e hmem

end

/-! ## The order of keys -/

/-- Two nodes that differ at most in the order of the keys of mappings in them. -/
inductive Reordered : Node → Node → Prop where
  | null : Reordered .null .null
  | scalar (s : Scalar) : Reordered (.scalar s) (.scalar s)
  | sequence {xs ys : List Node} (length_eq : xs.length = ys.length)
      (items : ∀ (i : Nat) m n, xs[i]? = some m → ys[i]? = some n → Reordered m n) :
      Reordered (.sequence xs) (.sequence ys)
  | mapping {xs ys : List (String × Node)} (keys : (Entries.keys xs).Perm (Entries.keys ys))
      (values : ∀ key m n, Entries.get? key xs = some m → Entries.get? key ys = some n →
        Reordered m n) : Reordered (.mapping xs) (.mapping ys)
  | record (type : RecordType) {xs ys : List (String × Node)}
      (keys : Entries.keys xs = Entries.keys ys)
      (values : ∀ key m n, Entries.get? key xs = some m → Entries.get? key ys = some n →
        Reordered m n) : Reordered (.record type xs) (.record type ys)
  | indirect {m n : Node} (inner : Reordered m n) : Reordered (.indirect m) (.indirect n)

section Reordered

variable {m n o c d : Node} {xs ys : List (String × Node)}

theorem Reordered.refl (n : Node) : Reordered n n := by
  induction hsize : sizeOf n using Nat.strongRecOn generalizing n with
  | _ size ih =>
    subst hsize
    -- under a key, both sides have one and the same value
    have hvalues (entries : List (String × Node)) (hle : sizeOf entries < sizeOf n) (key : String)
        (m m' : Node) (hm : Entries.get? key entries = some m)
        (hm' : Entries.get? key entries = some m') : Reordered m m' := by
      rw [hm] at hm'
      cases hm'
      exact ih _ (Nat.lt_trans (Entries.sizeOf_lt_of_get? hm) hle) m rfl
    cases n with
    | null => exact .null
    | scalar s => exact .scalar s
    | sequence items =>
      refine .sequence rfl fun i m m' hm hm' => ?_
      rw [hm] at hm'
      cases hm'
      have hlt := List.sizeOf_lt_of_mem (List.mem_of_getElem? hm)
      refine ih _ ?_ m rfl
      rw [Node.sequence.sizeOf_spec]
      omega
    | mapping entries =>
      refine .mapping (.refl _) (hvalues entries ?_)
      rw [Node.mapping.sizeOf_spec]
      omega
    | record type held =>
      refine .record type rfl (hvalues held ?_)
      rw [Node.record.sizeOf_spec]
      omega
    | indirect inner =>
      refine .indirect (ih _ ?_ inner rfl)
      rw [Node.indirect.sizeOf_spec]
      omega

theorem Reordered.symm (h : Reordered m n) : Reordered n m := by
  induction h with
  | null => exact .null
  | scalar s => exact .scalar s
  | sequence length_eq _ ih => exact .sequence length_eq.symm fun i m n hm hn => ih i n m hn hm
  | mapping keys _ ih => exact .mapping keys.symm fun key m n hm hn => ih key n m hn hm
  | record type keys _ ih => exact .record type keys.symm fun key m n hm hn => ih key n m hn hm
  | indirect _ ih => exact .indirect ih

/-- A value under a key stands beside one under the same key of the other dictionary. -/
theorem exists_get?_of_perm (keys : (Entries.keys xs).Perm (Entries.keys ys)) {key : String}
    (h : Entries.get? key xs = some m) : ∃ n, Entries.get? key ys = some n :=
  Entries.exists_get?_of_mem (keys.mem_iff.mp (Entries.mem_keys_of_get? h))

theorem Reordered.trans (h : Reordered m n) : Reordered n o → Reordered m o := by
  induction h generalizing o with
  | null => exact id
  | scalar s => exact id
  | @sequence xs ys length_eq _ ih =>
    intro h'
    cases h' with
    | sequence length_eq' items' =>
      refine .sequence (length_eq.trans length_eq') fun i m o hm ho => ?_
      have hlt : i < ys.length := length_eq ▸ (List.getElem?_eq_some_iff.mp hm).1
      have hn : ys[i]? = some ys[i] := List.getElem?_eq_getElem hlt
      exact ih i m _ hm hn (items' i _ o hn ho)
  | mapping keys _ ih =>
    intro h'
    cases h' with
    | mapping keys' values' =>
      refine .mapping (keys.trans keys') fun key m o hm ho => ?_
      obtain ⟨n, hn⟩ := exists_get?_of_perm keys hm
      exact ih key m n hm hn (values' key n o hn ho)
  | record type keys _ ih =>
    intro h'
    cases h' with
    | record _ keys' values' =>
      refine .record type (keys.trans keys') fun key m o hm ho => ?_
      obtain ⟨n, hn⟩ := exists_get?_of_perm (.of_eq keys) hm
      exact ih key m n hm hn (values' key n o hn ho)
  | indirect _ ih =>
    intro h'
    cases h' with
    | indirect inner' => exact .indirect (ih inner')

theorem Reordered.core (h : Reordered m n) : Reordered m.core n.core := by
  induction h with
  | indirect _ ih => exact ih
  | null => exact .null
  | scalar s => exact .scalar s
  | sequence length_eq items => exact .sequence length_eq items
  | mapping keys values => exact .mapping keys values
  | record type keys values => exact .record type keys values

theorem Reordered.withCore (h : Reordered m n) (hc : Reordered c d) :
    Reordered (m.withCore c) (n.withCore d) := by
  induction h with
  | indirect _ ih => exact .indirect ih
  | _ => exact hc

end Reordered

/-! ## Equality overlooks the order of keys -/

section Dictionaries

variable {xs ys : List (String × Node)} {R : Node → Node → Prop}

/-- To find each entry of a dictionary without repeated keys in another one of its size is to have
the same keys, and related values under them. -/
theorem found_iff_of_distinct (hx : Entries.Distinct xs) :
    (xs.length = ys.length ∧ ∀ e ∈ xs, ∃ n, Entries.get? e.1 ys = some n ∧ R e.2 n) ↔
      (Entries.keys xs).Perm (Entries.keys ys) ∧
        ∀ key m n, Entries.get? key xs = some m → Entries.get? key ys = some n → R m n := by
  constructor
  · rintro ⟨hlength, hfound⟩
    have hsub : Entries.keys xs ⊆ Entries.keys ys := by
      intro key hkey
      obtain ⟨e, he, rfl⟩ := List.mem_map.mp hkey
      obtain ⟨n, hn, _⟩ := hfound e he
      exact Entries.mem_keys_of_get? hn
    have hle : (Entries.keys ys).length ≤ (Entries.keys xs).length := by
      simp [Entries.keys, hlength]
    refine ⟨(List.Nodup.subperm hx hsub).perm_of_length_le hle, fun key m n hm hn => ?_⟩
    obtain ⟨n', hn', hrel⟩ := hfound (key, m) (Entries.mem_of_get? hm)
    rw [hn] at hn'
    cases hn'
    exact hrel
  · rintro ⟨hkeys, hvalues⟩
    have hlength := hkeys.length_eq
    simp only [Entries.keys, List.length_map] at hlength
    refine ⟨hlength, fun e he => ?_⟩
    have hm : Entries.get? e.1 xs = some e.2 := Entries.get?_of_mem hx he
    obtain ⟨n, hn⟩ := exists_get?_of_perm hkeys hm
    exact ⟨n, hn, hvalues e.1 e.2 n hm hn⟩

end Dictionaries

/-- Equality of two formed nodes tells whether they are reordered. -/
def EqualIff (m n : Node) : Prop :=
  Formed m → Formed n → (equal m n = true ↔ Reordered m n)

/-- The same item by item. -/
def ItemsIff (xs ys : List Node) : Prop :=
  (∀ n ∈ xs, Formed n) → (∀ n ∈ ys, Formed n) →
    (equalItems xs ys = true ↔
      xs.length = ys.length ∧ ∀ (i : Nat) m n, xs[i]? = some m → ys[i]? = some n → Reordered m n)

/-- The same for the entries of a dictionary that are looked up in another one. -/
def WithinIff (xs ys : List (String × Node)) : Prop :=
  (∀ e ∈ xs, Formed e.2) → (∀ e ∈ ys, Formed e.2) →
    (within xs ys = true ↔ ∀ e ∈ xs, ∃ n, Entries.get? e.1 ys = some n ∧ Reordered e.2 n)

section Cases

variable {m n : Node} {items others : List Node} {xs ys : List (String × Node)}

theorem equalIff_sequence (h : ItemsIff items others) :
    EqualIff (.sequence items) (.sequence others) := by
  intro hm hn
  rw [equal, h (fun n hi => hm.part (.item hi .here)) fun n hi => hn.part (.item hi .here)]
  constructor
  · exact fun ⟨hlength, hitems⟩ => .sequence hlength hitems
  · intro hr
    cases hr with
    | sequence hlength hitems => exact ⟨hlength, hitems⟩

theorem equalIff_mapping (h : WithinIff xs ys) : EqualIff (.mapping xs) (.mapping ys) := by
  intro hm hn
  obtain ⟨hx, hxs⟩ := formed_mapping_iff.mp hm
  obtain ⟨_, hys⟩ := formed_mapping_iff.mp hn
  rw [equal, Bool.and_eq_true, beq_iff_eq, h hxs hys, found_iff_of_distinct hx]
  constructor
  · exact fun ⟨hkeys, hvalues⟩ => .mapping hkeys hvalues
  · intro hr
    cases hr with
    | mapping hkeys hvalues => exact ⟨hkeys, hvalues⟩

/-- Records of one type have their names in the same order. -/
theorem equalIff_record {s t : RecordType} (h : WithinIff xs ys) :
    EqualIff (.record s xs) (.record t ys) := by
  intro hm hn
  obtain ⟨hxnames, hxs⟩ := formed_record_iff.mp hm
  obtain ⟨hynames, hys⟩ := formed_record_iff.mp hn
  rw [equal, Bool.and_eq_true, Bool.and_eq_true, beq_iff_eq, beq_iff_eq, h hxs hys, and_assoc,
    found_iff_of_distinct hm.distinct]
  constructor
  · rintro ⟨rfl, _, hvalues⟩
    exact .record s (hxnames.trans hynames.symm) hvalues
  · intro hr
    cases hr with
    | record _ hkeys hvalues => exact ⟨rfl, .of_eq hkeys, hvalues⟩

theorem equalIff_indirect (h : EqualIff m n) : EqualIff (.indirect m) (.indirect n) := by
  intro hm hn
  rw [equal, h (hm.part (.layer .here)) (hn.part (.layer .here))]
  constructor
  · exact .indirect
  · intro hr
    cases hr with
    | indirect inner => exact inner

theorem itemsIff_cons (hfirst : EqualIff m n) (hrest : ItemsIff items others) :
    ItemsIff (m :: items) (n :: others) := by
  intro hx hy
  rw [equalItems, Bool.and_eq_true,
    hfirst (hx m List.mem_cons_self) (hy n List.mem_cons_self),
    hrest (fun n hn => hx n (List.mem_cons_of_mem _ hn)) fun n hn =>
      hy n (List.mem_cons_of_mem _ hn)]
  constructor
  · rintro ⟨hmn, hlength, hitems⟩
    refine ⟨congrArg (· + 1) hlength, fun i a b ha hb => ?_⟩
    cases i with
    | zero =>
      cases ha
      cases hb
      exact hmn
    | succ i => exact hitems i a b ha hb
  · rintro ⟨hlength, hitems⟩
    exact ⟨hitems 0 m n rfl rfl, Nat.succ.inj hlength, fun i a b => hitems (i + 1) a b⟩

theorem withinIff_cons {key : String} (hfirst : ∀ n, EqualIff m n) (hrest : WithinIff xs ys) :
    WithinIff ((key, m) :: xs) ys := by
  intro hx hy
  rw [within, Bool.and_eq_true, hrest (fun e he => hx e (List.mem_cons_of_mem _ he)) hy,
    List.forall_mem_cons]
  refine and_congr_left fun _ => ?_
  cases hget : Entries.get? key ys with
  | none => simp
  | some n =>
    have hiff := hfirst n (hx _ List.mem_cons_self) (hy _ (Entries.mem_of_get? hget))
    simp [hiff]

end Cases

/-- Formed documents are equal exactly if they differ at most in the order of the keys of
mappings. -/
theorem equal_iff (m n : Node) : EqualIff m n := by
  -- along the comparison itself: an entry may be compared with any value of the other dictionary
  refine (equal.mutual_induct EqualIff WithinIff ItemsIff ?null ?scalar ?sequence ?mapping ?record
    ?indirect ?other ?nil ?cons ?lengths ?empty ?entry).1 m n
  case null =>
    intro _ _
    rw [equal]
    exact ⟨fun _ => .null, fun _ => rfl⟩
  case scalar =>
    intro a b _ _
    rw [equal, beq_iff_eq]
    constructor
    · rintro rfl
      exact .scalar a
    · intro hr
      cases hr
      rfl
  case sequence => exact fun _ _ => equalIff_sequence
  case mapping => exact fun _ _ => equalIff_mapping
  case record => exact fun _ _ _ _ => equalIff_record
  case indirect => exact fun _ _ => equalIff_indirect
  case other =>
    intro t x h₁ h₂ h₃ h₄ h₅ h₆ _ _
    rw [equal.eq_7 t x h₁ h₂ h₃ h₄ h₅ h₆]
    constructor
    · intro he
      cases he
    · intro hr
      cases hr with
      | null => exact (h₁ rfl rfl).elim
      | scalar s => exact (h₂ s s rfl rfl).elim
      | sequence => exact (h₃ _ _ rfl rfl).elim
      | mapping => exact (h₄ _ _ rfl rfl).elim
      | record => exact (h₅ _ _ _ _ rfl rfl).elim
      | indirect => exact (h₆ _ _ rfl rfl).elim
  case nil =>
    intro _ _
    rw [equalItems]
    exact ⟨fun _ => ⟨rfl, fun i m n hm => by cases hm⟩, fun _ => rfl⟩
  case cons => exact fun _ _ _ _ => itemsIff_cons
  case lengths =>
    intro xs ys h₁ h₂ _ _
    rw [equalItems.eq_3 xs ys h₁ h₂]
    constructor
    · intro he
      cases he
    · rintro ⟨hlength, _⟩
      cases xs with
      | nil => exact (h₁ rfl (List.length_eq_zero_iff.mp hlength.symm)).elim
      | cons x xs =>
        cases ys with
        | nil => cases hlength
        | cons y ys => exact (h₂ x xs y ys rfl rfl).elim
  case empty =>
    intro ys _ _
    rw [within]
    exact ⟨fun _ e he => absurd he List.not_mem_nil, fun _ => rfl⟩
  case entry => exact fun _ _ _ _ => withinIff_cons

theorem beq_iff {m n : Node} (hm : Formed m) (hn : Formed n) :
    (m == n) = true ↔ Reordered m n :=
  equal_iff m n hm hn

/-- Equality of documents is an equivalence. -/
theorem equivalence_beq :
    Equivalence fun m n : { n : Node // Formed n } => (m.1 == n.1) = true where
  refl n := (beq_iff n.2 n.2).mpr (.refl n.1)
  symm {m n} h := (beq_iff n.2 m.2).mpr ((beq_iff m.2 n.2).mp h).symm
  trans {m n o} h h' :=
    (beq_iff m.2 o.2).mpr (((beq_iff m.2 n.2).mp h).trans ((beq_iff n.2 o.2).mp h'))

end Node

end Polydoc
