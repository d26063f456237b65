/-
  Proofs/Decode/Copies.lean --- decoding a document into a copy of itself in which one place has been
  overwritten.

  A parsed document decoded into itself is left as it is.  Where one place of the copy holds something
  else, the mappings on the way to it are merged with themselves but for the member that leads on, so
  that all that happens is that the value at the place is decoded into what stands there.
-/
import Polydoc.Proofs.Decode.Places
import Polydoc.Proofs.Document.Parsed
import Polydoc.Proofs.Resolver.Contract
import Polydoc.Resolver.Decode

set_option autoImplicit false

namespace Polydoc

namespace Decode

open Node

/-! ## Merging entries one after another -/

section Merge

variable {entries decoded : List (String × Node)} {place : Place}

theorem merge_append (xs ys : List (String × Node)) :
    merge (xs ++ ys) entries place =
      match merge xs entries place with
      | (decoded, .ok ()) => merge ys decoded place
      | (decoded, .error e) => (decoded, .error e) := by
  induction xs generalizing entries with
  | nil => rw [List.nil_append, merge_nil]
  | cons x xs ih =>
    obtain ⟨key, source⟩ := x
    rw [List.cons_append]
    cases hget : Entries.get? key entries with
    | none => rw [merge_cons_none hget, merge_cons_none hget, ih]
    | some slot =>
      rw [merge_cons_some hget, merge_cons_some hget]
      cases into source slot (place ++ [.member key]) with
      | mk decoded result =>
        cases result with
        | error e => rfl
        | ok _ => exact ih

/-- Entries that leave what they are decoded into as it is change nothing. -/
theorem merge_fixed {values : List (String × Node)}
    (fixed : ∀ e ∈ values, ∃ n, Entries.get? e.1 entries = some n ∧
      into e.2 n (place ++ [.member e.1]) = (n, .ok ())) :
    merge values entries place = (entries, .ok ()) := by
  induction values with
  | nil => exact merge_nil entries
  | cons first rest ih =>
    obtain ⟨key, source⟩ := first
    obtain ⟨n, hget, hinto⟩ := fixed _ List.mem_cons_self
    rw [merge_cons_some hget, hinto]
    dsimp only
    rw [Entries.put_of_get? hget]
    exact ih fun e he => fixed e (List.mem_cons_of_mem _ he)

/-- A node that is left as it is when it is decoded into itself. -/
def Settled (n : Node) : Prop :=
  ∀ (place : Place), into n n place = (n, .ok ())

/-- Entries that are there already, with values that are settled, change nothing. -/
theorem merge_settled {values : List (String × Node)}
    (there : ∀ e ∈ values, Entries.get? e.1 entries = some e.2)
    (settled : ∀ e ∈ values, Settled e.2) : merge values entries place = (entries, .ok ()) :=
  merge_fixed fun e he => ⟨e.2, there e he, settled e he _⟩

/-- Entries merged with themselves but for one: that one is decoded, and nothing else happens. -/
theorem merge_replaced {key : String} {child child' : Node}
    (hd : Entries.Distinct entries) (stored : Entries.get? key entries = some child)
    (settled : ∀ e ∈ entries, Settled e.2) :
    merge entries (Entries.put key child' entries) place =
      (Entries.put key (into child child' (place ++ [.member key])).1 entries,
        (into child child' (place ++ [.member key])).2) := by
  obtain ⟨before, after, hsplit, _, _⟩ := Entries.split_of_get? stored
  have hkeys : (Entries.keys before ++ key :: Entries.keys after).Nodup := by
    rw [Entries.Distinct, hsplit, Entries.keys, List.map_append] at hd
    exact hd
  obtain ⟨_, hafter, hbefore⟩ := List.nodup_append.mp hkeys
  -- the others are found behind the changed entry
  have hothers (n : Node) {e : String × Node} (he : e ∈ entries) (hne : key ≠ e.1) :
      Entries.get? e.1 (Entries.put key n entries) = some e.2 := by
    rw [Entries.get?_put, if_neg hne]
    exact Entries.get?_of_mem hd he
  have hmem {e : String × Node} (he : e ∈ before ∨ e ∈ after) : e ∈ entries := by
    rw [hsplit, List.mem_append, List.mem_cons]
    exact he.imp_right .inr
  have hfirst : merge before (Entries.put key child' entries) place =
      (Entries.put key child' entries, .ok ()) := by
    refine merge_settled (fun e he => hothers child' (hmem (.inl he)) fun heq => ?_)
      fun e he => settled e (hmem (.inl he))
    exact hbefore e.1 (List.mem_map_of_mem he) key List.mem_cons_self heq.symm
  have hlast (n : Node) : merge after (Entries.put key n entries) place =
      (Entries.put key n entries, .ok ()) := by
    refine merge_settled (fun e he => hothers n (hmem (.inr he)) fun heq => ?_)
      fun e he => settled e (hmem (.inr he))
    exact (List.nodup_cons.mp hafter).1 (heq ▸ List.mem_map_of_mem he)
  have hget : Entries.get? key (Entries.put key child' entries) = some child' := by
    rw [Entries.get?_put, if_pos rfl]
  have hmerge : merge (before ++ (key, child) :: after) (Entries.put key child' entries) place =
      (Entries.put key (into child child' (place ++ [.member key])).1 entries,
        (into child child' (place ++ [.member key])).2) := by
    rw [merge_append, hfirst]
    dsimp only
    rw [merge_cons_some hget]
    cases into child child' (place ++ [.member key]) with
    | mk n result =>
      have hput : Entries.put key n (Entries.put key child' entries) = Entries.put key n entries :=
        Entries.put_put key child' n entries
      cases result with
      | error e =>
        dsimp only
        rw [hput]
      | ok _ =>
        dsimp only
        rw [hput]
        exact hlast n
  rw [← hsplit] at hmerge
  exact hmerge

end Merge

/-! ## A document into itself -/

/-- A parsed document decoded into itself is left as it is. -/
theorem settled_of_parsed {n : Node} (h : Parsed n) : Settled n := by
  induction hsize : sizeOf n using Nat.strongRecOn generalizing n with
  | _ size ih =>
    intro place
    have hcore : n.core = n := h.plain.core
    by_cases hmapping : ∃ entries, n = .mapping entries
    · obtain ⟨entries, rfl⟩ := hmapping
      have hinside : ∀ e ∈ entries, Settled e.2 := fun e he =>
        ih (sizeOf e.2) (hsize ▸ sizeOf_entry_lt hcore he) (h.part (.entry he .here)) rfl
      have hthere : ∀ e ∈ entries, Entries.get? e.1 entries = some e.2 := fun e he =>
        Entries.get?_of_mem (h.keyed entries .here) he
      rw [into_of_mappings rfl rfl, merge_settled hthere hinside]
      rfl
    · have hother : into n n place = (n.withCore n.core, .ok ()) := by
        refine into_of_other (fun type held heq => ?_) fun entries _ heq => ?_
        · rw [hcore] at heq
          subst heq
          exact absurd .here (h.plain.recordFree type held)
        · rw [hcore] at heq
          exact absurd ⟨entries, heq⟩ hmapping
      rw [hother, withCore_core]

/-- A member of a parsed document is a member of a mapping. -/
theorem entries_of_stored? {n child : Node} {key : String} (h : Parsed n)
    (hs : n.stored? key = some child) :
    ∃ entries, n = .mapping entries ∧ Entries.get? key entries = some child := by
  cases n with
  | mapping entries => exact ⟨entries, rfl, hs⟩
  | record type held => exact absurd .here (h.plain.recordFree type held)
  | indirect inner => exact absurd .here (h.plain.layerFree inner)
  | _ => cases hs

/-! ## A document into a copy that is overwritten -/

/-- Decoding a document into a copy of it with one place overwritten: the value at the place is
decoded into what was put there, and nothing else happens. -/
theorem into_overwritten {x v : Node} {es : List Element} :
    ∀ {source t : Node} {index : Nat} (place : Place), Parsed source →
      source.walk index es = .ok v → source.overwrite x index es = .ok t →
        ∃ m, source.overwrite (into v x (place ++ (source.place es).map .member)).1 index es = .ok m ∧
          into source t place = (m, (into v x (place ++ (source.place es).map .member)).2) := by
  induction es with
  | nil =>
    intro source t index place _ hv ht
    cases hv
    cases ht
    rw [Node.place, List.map_nil, List.append_nil]
    exact ⟨_, rfl, rfl⟩
  | cons e rest ih =>
    intro source t index place h hv ht
    cases e with
    | self => exact ih place h hv ht
    | parent => cases hv
    | root => cases hv
    | name text =>
      rcases enter_cases source text with ⟨key, child, hk, hs, he⟩ | ⟨_, he⟩
      · obtain ⟨child', hc, rfl⟩ := overwrite_name_ok hk he ht
        rw [walk_name he] at hv
        obtain ⟨entries, rfl, hget⟩ := entries_of_stored? h hs
        have hchild : Parsed child := h.part (.entry (Entries.mem_of_get? hget) .here)
        obtain ⟨m, hm, hinto⟩ := ih (place ++ [.member key]) hchild hv hc
        have hplace : place ++ ((Node.mapping entries).place (.name text :: rest)).map .member =
            place ++ [.member key] ++ (child.place rest).map .member := by
          rw [place_name hk he, List.map_cons, List.append_cons]
        have hsettled : ∀ e ∈ entries, Settled e.2 := fun e he =>
          settled_of_parsed (h.part (.entry he .here))
        -- every other member meets itself
        have hmerge : merge entries (Entries.put key child' entries) place =
            (Entries.put key (into child child' (place ++ [.member key])).1 entries,
              (into child child' (place ++ [.member key])).2) :=
          merge_replaced (h.keyed entries .here) hget hsettled
        rw [hinto] at hmerge
        rw [hplace]
        refine ⟨.mapping (Entries.put key m entries), ?_, ?_⟩
        · rw [overwrite_name hk he, hm]
          rfl
        · have hstore : (Node.mapping entries).store key child' =
              .mapping (Entries.put key child' entries) := rfl
          rw [hstore, into_of_mappings rfl rfl, hmerge]
          rfl
      · rw [walk_name_error he] at hv
        cases hv

end Decode

open Node

/-- A null has one place, the root. -/
theorem overwrite_null {source x t : Node} {es : List Element} (hnull : source.isNull = true) :
    ∀ {index : Nat}, source.overwrite x index es = .ok t → t = x := by
  have henter (text : String) : source.enter text = .error .nilValue := by
    unfold isNull at hnull
    unfold enter
    cases hcore : source.core with
    | null => rfl
    | _ =>
      rw [hcore] at hnull
      cases hnull
  induction es with
  | nil =>
    intro index h
    cases h
    rfl
  | cons e rest ih =>
    intro index h
    cases e with
    | self => exact ih h
    | name text =>
      rw [overwrite_name_error (henter text)] at h
      cases h
    | parent => cases h
    | root => cases h

/-- A document decoded into a copy of it with a fresh record at the end of a path: the value at the
path is decoded into the fresh record. -/
theorem decodeInto_copy {source v assigned : Node} {p : Path} {t : RecordType} (h : Parsed source)
    (hv : source.at? p = .ok v) (ht : source.setAt? p t.zero = .ok assigned) :
    ∃ decoded, source.setAt? p (decodeInto v t.zero).1 = .ok decoded ∧
      decodeInto source assigned = (decoded, Decode.resultBehind
        ((source.place p.elements).map Decode.Step.member) (decodeInto v t.zero).2) := by
  have hover := setAt?_eq_ok_iff.mp ht
  obtain ⟨decoded, hset, hinto⟩ := Decode.into_overwritten [] h (at?_eq_ok_iff.mp hv) hover
  have hfresh : decodeInto v t.zero = Decode.into v t.zero [] := Decode.decodeInto_record v _ _
  have hbehind := (Decode.relocates v).into t.zero
    ((source.place p.elements).map Decode.Step.member) []
  rw [List.append_nil, ← hfresh] at hbehind
  have hroot : decodeInto source assigned = Decode.into source assigned [] := by
    unfold decodeInto
    split
    · rename_i hnull
      have hassigned : assigned = t.zero := overwrite_null hnull hover
      rw [hassigned]
      exact (Decode.into_of_record_null rfl hnull).symm
    · rfl
  rw [List.nil_append, hbehind] at hset hinto
  exact ⟨decoded, setAt?_eq_ok_iff.mpr hset, hroot.trans hinto⟩

/-- Decoding into a fresh record leaves a record of its type. -/
theorem decodeInto_zero_record (v : Node) (t : RecordType) :
    ∃ held, (decodeInto v t.zero).1 = .record t held := by
  have hfresh : decodeInto v t.zero = Decode.into v t.zero [] := Decode.decodeInto_record v _ _
  rw [hfresh, RecordType.zero, Kind.ofType, Kind.zero, Decode.into_record]
  split
  · exact ⟨_, rfl⟩
  · exact ⟨_, rfl⟩

theorem decodeInto_null {source : Node} (h : source.isNull = true) (target : Node) :
    decodeInto source target = (target, .ok ()) := by
  rw [decodeInto, if_pos h]

namespace Resolver

variable {r : Resolver} {source v : Node} {t : RecordType}

/-- What a resolver makes of a copy of the source goes by what decoding the value at the target path
comes to. -/
theorem decode_copy_eq (h : Parsed source) (hv : source.at? r.target = .ok v)
    (hs : Selects source r.strategy t) :
    ∃ decoded, source.setAt? r.target (decodeInto v t.zero).1 = .ok decoded ∧
      ((decodeInto v t.zero).2 = .ok () → r.decode source source = (decoded, .ok true)) ∧
      ∀ e, (decodeInto v t.zero).2 = .error e → r.decode source source =
        (decoded, .error (.decode
          (e.behind ((source.place r.target.elements).map Decode.Step.member)))) := by
  rcases assign_of_selects hs source with ⟨cause, hread, _⟩ | ⟨assigned, hset, _, hassign⟩
  · rw [hread] at hv
    cases hv
  · obtain ⟨decoded, hover, hinto⟩ := decodeInto_copy h hv hset
    refine ⟨decoded, hover, fun hok => ?_, fun e he => ?_⟩
    · rw [hok] at hinto
      rw [decode_of_assign hassign, hinto]
      rfl
    · rw [he] at hinto
      rw [decode_of_assign hassign, hinto]
      rfl

/-- **Decoding a document into a copy of itself.**  The resolver selects a type, and the target path
leads to a value.  Decoding succeeds just if that value is null or decodes into a fresh record of the
type.  Then the copy is as before but for the place of the path, where that record is: the zero
record, if the value is null.  Otherwise decoding fails as decoding the value alone does, with the
place of the path in front of that of the error. -/
theorem decode_copy (h : Parsed source) (hv : source.at? r.target = .ok v)
    (hs : Selects source r.strategy t) :
    ((r.decode source source).2 = .ok true ↔
        v.isNull = true ∨ (decodeInto v t.zero).2 = .ok ()) ∧
      (∀ decoded, r.decode source source = (decoded, .ok true) →
        ∃ held, decodeInto v t.zero = (.record t held, .ok ()) ∧
          (v.isNull = true → .record t held = t.zero) ∧
          source.setAt? r.target (.record t held) = .ok decoded ∧
          AgreeOff (source.place r.target.elements) source decoded ∧
          decoded.at? r.target = .ok (.record t held)) ∧
      ((r.decode source source).2 ≠ .ok true →
        ∃ e, (decodeInto v t.zero).2 = .error e ∧
          (r.decode source source).2 = .error (.decode
            ⟨(source.place r.target.elements).map Decode.Step.member ++ e.place, e.expected,
              e.found⟩)) := by
  obtain ⟨written, hset, hok, herror⟩ := decode_copy_eq h hv hs
  obtain ⟨held, hheld⟩ := decodeInto_zero_record v t
  have hnull : v.isNull = true → decodeInto v t.zero = (t.zero, .ok ()) :=
    fun hn => decodeInto_null hn t.zero
  cases hresult : (decodeInto v t.zero).2 with
  | ok _ =>
    have hdecode := hok hresult
    refine ⟨⟨fun _ => .inr rfl, fun _ => ?_⟩, fun decoded hd => ?_, fun hne => ?_⟩
    · rw [hdecode]
    · rw [hdecode] at hd
      cases hd
      rw [hheld] at hset
      have hover := setAt?_eq_ok_iff.mp hset
      refine ⟨held, Prod.ext hheld hresult, fun hn => ?_, hset, agreeOff_overwrite hover,
        at?_eq_ok_iff.mpr (walk_overwrite 0 hover)⟩
      rw [← hheld, hnull hn]
    · rw [hdecode] at hne
      exact absurd rfl hne
  | error e =>
    have hdecode := herror e hresult
    have hnone : ¬ v.isNull = true := by
      intro hn
      rw [hnull hn] at hresult
      cases hresult
    refine ⟨⟨fun hd => ?_, fun hor => ?_⟩, fun decoded hd => ?_, fun _ => ⟨e, rfl, ?_⟩⟩
    · rw [hdecode] at hd
      cases hd
    · rcases hor with hn | hd
      · exact absurd hn hnone
      · cases hd
    · rw [hdecode] at hd
      cases hd
    · rw [hdecode]
      rfl

/-- A pet that is a horse, and one that is a number. -/
theorem decode_copy_pet :
    let horse : RecordType := ⟨"Horse", [("Shoes", .integer)]⟩
    let r : Resolver := ⟨⟨[.name "pet"], true⟩, .strict,
      .typeMap ⟨[.name "kind"], true⟩ ⟨[(.string "horse", horse)]⟩⟩
    let source (v : Node) : Node := .mapping [("pet", v), ("kind", .string "horse")]
    let shod : Node := .mapping [("Shoes", .integer 4), ("name", .string "Bo")]
    let five : Node := .integer 5
    (Parsed (source shod) ∧ (source shod).at? r.target = .ok shod ∧
        Selects (source shod) r.strategy horse ∧
        (r.decode (source shod) (source shod)).2 = .ok true) ∧
      Parsed (source five) ∧ (source five).at? r.target = .ok five ∧
        Selects (source five) r.strategy horse ∧
        (r.decode (source five) (source five)).2 =
          .error (.decode ⟨[.member "pet"], "Horse", "integer"⟩) := by
  intro horse r source shod five
  have hsource {v : Node} (h : Parsed v) : Parsed (source v) := by
    refine parsed_mapping (by simp [Entries.Distinct, Entries.keys]) fun e he => ?_
    simp only [List.mem_cons, List.not_mem_nil, or_false] at he
    rcases he with rfl | rfl
    · exact h
    · exact parsed_scalar _
  have hshod : Parsed shod := by
    refine parsed_mapping (by simp [Entries.Distinct, Entries.keys]) fun e he => ?_
    simp only [List.mem_cons, List.not_mem_nil, or_false] at he
    rcases he with rfl | rfl
    · exact parsed_scalar _
    · exact parsed_scalar _
  have hfive : Parsed five := parsed_scalar _
  have hselects (v : Node) : Selects (source v) r.strategy horse := .mapped rfl rfl rfl
  have hok : (decodeInto shod horse.zero).2 = .ok () := by
    simp [shod, horse, decodeInto, Decode.into, Decode.record, Decode.fields, Decode.value,
      Decode.lookup, Decode.hasMembers, Decode.scalarFor, RecordType.zero, Kind.zero,
      Kind.zeroFields, Kind.ofType, Entries.ofList, Entries.putAll, Entries.put, Entries.get?,
      Entries.find?, Entries.resolve?, core, isNull, Node.integer, Node.string]
  have herror : (decodeInto five horse.zero).2 = .error ⟨[], "Horse", "integer"⟩ := by
    simp [five, horse, decodeInto, Decode.into, Decode.record, Decode.hasMembers, Decode.mismatch,
      RecordType.zero, Kind.zero, Kind.ofType, core, isNull, kindName, Node.integer,
      Scalar.kindName]
  obtain ⟨hiff, _, _⟩ := decode_copy (hsource hshod) rfl (hselects shod)
  obtain ⟨hiff', _, hfails⟩ := decode_copy (hsource hfive) rfl (hselects five)
  refine ⟨⟨hsource hshod, rfl, hselects shod, hiff.mpr (.inr hok)⟩, hsource hfive, rfl,
    hselects five, ?_⟩
  have hne : (r.decode (source five) (source five)).2 ≠ .ok true := by
    intro h
    rcases hiff'.mp h with hnull | hd
    · cases hnull
    · rw [herror] at hd
      cases hd
  obtain ⟨e, he, hdecode⟩ := hfails hne
  rw [herror] at he
  cases he
  exact hdecode

end Resolver

end Polydoc
