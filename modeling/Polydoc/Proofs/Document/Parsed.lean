/-
  Proofs/Document/Parsed.lean --- what the readers make: documents of nulls, scalars, sequences and
  mappings, in which no mapping has a key twice.

  A repeated key of the text has gone into its mapping once.  Whatever is loaded, as JSON or as YAML,
  compressed or not, is such a document.
-/
import Polydoc.Document.Reader
import Polydoc.Proofs.Node.Plain
import Polydoc.Proofs.Results

set_option autoImplicit false

namespace Polydoc

namespace Node

/-- A document as the readers make it: without records and layers, and with distinct keys in every
mapping. -/
structure Parsed (n : Node) : Prop where
  plain : Plain n
  keyed : ∀ entries, Part (.mapping entries) n → Entries.Distinct entries

theorem Parsed.part {m n : Node} (h : Parsed n) (hp : Part m n) : Parsed m :=
  ⟨h.plain.part hp, fun entries he => h.keyed entries (he.trans hp)⟩

theorem parsed_null : Parsed .null := by
  refine ⟨plain_null, fun entries he => ?_⟩
  cases he

theorem parsed_scalar (s : Scalar) : Parsed (.scalar s) := by
  refine ⟨plain_scalar s, fun entries he => ?_⟩
  cases he

theorem parsed_sequence {items : List Node} (h : ∀ n ∈ items, Parsed n) :
    Parsed (.sequence items) := by
  refine ⟨plain_sequence fun n hn => (h n hn).plain, fun entries he => ?_⟩
  cases he with
  | item mem inner => exact (h _ mem).keyed entries inner

theorem parsed_mapping {entries : List (String × Node)} (hd : Entries.Distinct entries)
    (h : ∀ e ∈ entries, Parsed e.2) : Parsed (.mapping entries) := by
  refine ⟨plain_mapping fun e he => (h e he).plain, fun entries he => ?_⟩
  cases he with
  | here => exact hd
  | entry mem inner => exact (h _ mem).keyed entries inner

/-- The mapping of parsed values has each key once, whatever was read. -/
theorem parsed_ofList {pairs : List (String × Node)} (h : ∀ e ∈ pairs, Parsed e.2) :
    Parsed (.mapping (Entries.ofList pairs)) :=
  parsed_mapping (Entries.distinct_ofList pairs) fun e he => h e (Entries.mem_of_mem_ofList he)

end Node

/-! ## JSON -/

namespace Json

open Node

/-- What the reader makes with some fuel is parsed. -/
structure Reads (fuel : Nat) : Prop where
  value : ∀ {depth cs n rest}, value fuel depth cs = some (n, rest) → Parsed n
  items : ∀ {depth cs ns rest}, items fuel depth cs = some (ns, rest) → ∀ n ∈ ns, Parsed n
  members : ∀ {depth cs es rest}, members fuel depth cs = some (es, rest) → ∀ e ∈ es, Parsed e.2

section Fuel

variable {fuel : Nat} (reads : Reads fuel)

include reads

theorem value_parsed {depth : Nat} {cs rest : List Char} {n : Node}
    (h : value (fuel + 1) depth cs = some (n, rest)) : Parsed n := by
  -- the first characters decide: nothing, a word, a text, a list, a mapping, or a number
  rw [Json.value] at h
  split at h
  · cases h
  · cases h
    exact parsed_null
  · cases h
    exact parsed_scalar _
  · cases h
    exact parsed_scalar _
  · obtain ⟨⟨s, left⟩, _, heq⟩ := Option.map_eq_some_iff.mp h
    cases heq
    exact parsed_scalar _
  · split at h
    · cases h
    · split at h
      · cases h
        exact parsed_sequence fun n hn => absurd hn List.not_mem_nil
      · obtain ⟨⟨ns, left⟩, hitems, heq⟩ := Option.map_eq_some_iff.mp h
        cases heq
        exact parsed_sequence (reads.items hitems)
  · split at h
    · cases h
    · split at h
      · cases h
        exact parsed_mapping .nil fun e he => absurd he List.not_mem_nil
      · obtain ⟨⟨es, left⟩, hmembers, heq⟩ := Option.map_eq_some_iff.mp h
        cases heq
        exact parsed_ofList (reads.members hmembers)
  · obtain ⟨⟨s, left⟩, _, heq⟩ := Option.map_eq_some_iff.mp h
    cases heq
    exact parsed_scalar s

theorem items_parsed {depth : Nat} {cs rest : List Char} {ns : List Node}
    (h : items (fuel + 1) depth cs = some (ns, rest)) : ∀ n ∈ ns, Parsed n := by
  rw [Json.items] at h
  split at h
  · cases h
  · rename_i first left hvalue
    have hfirst : Parsed first := reads.value hvalue
    split at h
    · cases h
      exact fun n hn => List.mem_singleton.mp hn ▸ hfirst
    · obtain ⟨⟨more, left⟩, hitems, heq⟩ := Option.map_eq_some_iff.mp h
      cases heq
      intro n hn
      rcases List.mem_cons.mp hn with rfl | hmore
      · exact hfirst
      · exact reads.items hitems n hmore
    · cases h

theorem members_parsed {depth : Nat} {cs rest : List Char} {es : List (String × Node)}
    (h : members (fuel + 1) depth cs = some (es, rest)) : ∀ e ∈ es, Parsed e.2 := by
  rw [Json.members] at h
  split at h
  · split at h
    · cases h
    · split at h
      · split at h
        · cases h
        · rename_i first left hvalue
          have hfirst : Parsed first := reads.value hvalue
          dsimp only at h
          split at h
          · cases h
            exact fun e he => List.mem_singleton.mp he ▸ hfirst
          · obtain ⟨⟨more, left⟩, hmembers, heq⟩ := Option.map_eq_some_iff.mp h
            cases heq
            intro e he
            rcases List.mem_cons.mp he with rfl | hmore
            · exact hfirst
            · exact reads.members hmembers e hmore
          · cases h
      · cases h
  · cases h

end Fuel

theorem reads (fuel : Nat) : Reads fuel := by
  induction fuel with
  | zero =>
    refine ⟨fun h => ?_, fun h => ?_, fun h => ?_⟩
    · cases h
    · cases h
    · cases h
  | succ fuel ih => exact ⟨value_parsed ih, items_parsed ih, members_parsed ih⟩

theorem parsed_of_read? {text : String} {n : Node} (h : read? text = some n) : Parsed n := by
  unfold read? readChars at h
  split at h
  · rename_i found rest hvalue
    split at h
    · cases h
      exact (reads _).value hvalue
    · cases h
  · cases h

end Json

/-! ## YAML -/

namespace Yaml

open Node

mutual

theorem parsed_of_toNode : (v : Value) → {n : Node} → toNode v = .ok n → Parsed n
  | .null, _, h => by
    cases h
    exact parsed_null
  | .bool b, _, h => by
    cases h
    exact parsed_scalar _
  | .number k, _, h => by
    cases h
    exact parsed_scalar _
  | .string s, _, h => by
    cases h
    exact parsed_scalar _
  | .sequence items, _, h => by
    rw [toNode] at h
    obtain ⟨ns, hitems, rfl⟩ := map_eq_ok_iff.mp h
    exact parsed_sequence (parsed_of_toNodes items hitems)
  | .mapping entries, _, h => by
    rw [toNode] at h
    obtain ⟨es, hentries, rfl⟩ := map_eq_ok_iff.mp h
    exact parsed_ofList (parsed_of_toEntries entries hentries)
  | .tagged _ v, _, h => parsed_of_toNode v h

theorem parsed_of_toNodes : (items : List Value) → {ns : List Node} → toNodes items = .ok ns →
    ∀ n ∈ ns, Parsed n
  | [], _, h => by
    cases h
    exact fun n hn => absurd hn List.not_mem_nil
  | v :: rest, _, h => by
    rw [toNodes] at h
    split at h
    · cases h
    · rename_i first hfirst
      obtain ⟨more, hmore, rfl⟩ := map_eq_ok_iff.mp h
      intro n hn
      rcases List.mem_cons.mp hn with rfl | hrest
      · exact parsed_of_toNode v hfirst
      · exact parsed_of_toNodes rest hmore n hrest

theorem parsed_of_toEntries : (entries : List (Value × Value)) → {es : List (String × Node)} →
    toEntries entries = .ok es → ∀ e ∈ es, Parsed e.2
  | [], _, h => by
    cases h
    exact fun e he => absurd he List.not_mem_nil
  | (k, v) :: rest, _, h => by
    rw [toEntries] at h
    split at h
    · cases h
    · split at h
      · cases h
      · rename_i first hfirst
        obtain ⟨more, hmore, rfl⟩ := map_eq_ok_iff.mp h
        intro e he
        rcases List.mem_cons.mp he with rfl | hrest
        · exact parsed_of_toNode v hfirst
        · exact parsed_of_toEntries rest hmore e hrest

end

theorem parsed_of_read {text : String} {n : Node} (h : read text = .ok n) : Parsed n := by
  unfold read at h
  split at h
  · exact parsed_of_toNode _ h
  · cases h

end Yaml

/-! ## Loading -/

namespace Document

open Node

theorem parsed_of_elim {α : Type} {found : Option α} {e : Error} {f : α → Except Error Node}
    {n : Node} (hf : ∀ a, f a = .ok n → Parsed n) (h : found.elim (.error e) f = .ok n) :
    Parsed n := by
  cases found with
  | none => cases h
  | some a => exact hf a h

theorem parsed_of_yaml {text : String} {f : Yaml.Error → Error} {n : Node}
    (h : (Yaml.read text).mapError f = .ok n) : Parsed n := by
  cases hread : Yaml.read text with
  | error e =>
    rw [hread] at h
    cases h
  | ok found =>
    rw [hread] at h
    cases h
    exact Yaml.parsed_of_read hread

theorem parsed_of_parse {format : Format} {text : String} {n : Node}
    (h : parse format text = .ok n) : Parsed n := by
  unfold parse at h
  cases format with
  | json =>
    dsimp only at h
    cases hread : Json.read? text with
    | none =>
      rw [hread] at h
      cases h
    | some found =>
      rw [hread] at h
      cases h
      exact Json.parsed_of_read? hread
  | yaml => exact parsed_of_yaml h

theorem parsed_of_parseAny {text : String} {n : Node} (h : parseAny text = .ok n) : Parsed n := by
  unfold parseAny at h
  split at h
  · rename_i found hread
    cases h
    exact Json.parsed_of_read? hread
  · exact parsed_of_yaml h

/-- Octets of unknown format are read to a parsed document. -/
theorem parsed_of_read {octets : List UInt8} {n : Node} (h : read octets = .ok n) : Parsed n := by
  unfold read at h
  split at h
  · exact parsed_of_elim (fun _ => parsed_of_parseAny) h
  · exact parsed_of_elim (fun _ => parsed_of_parseAny) h

/-- A file, whatever its name says of its format, is loaded as a parsed document. -/
theorem parsed_of_load {path : String} {content : Except String (List UInt8)} {n : Node}
    (h : load path content = .ok n) : Parsed n := by
  unfold load at h
  dsimp only at h
  split at h
  · cases h
  · split at h
    · exact parsed_of_elim (fun _ => parsed_of_parse) h
    · exact parsed_of_elim (fun _ => parsed_of_parse) h

end Document

end Polydoc
