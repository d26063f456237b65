/-
  Proofs/Kind/Written.lean --- a written kind is read back, with blanks around any part of it.

  The reader takes blanks, question marks and brackets off from the outside in, so each layer of a
  kind has one equation, whatever stands inside.  What is left in the end is a word, which is the
  name of a record type just if no layer could be taken off it and it is no keyword.
-/
import Polydoc.Kind.Form
import Polydoc.Proofs.Text.Blank

set_option autoImplicit false

namespace Polydoc

namespace Kind

open Text (Blanks trim isBlank)

/-! ## Names and spellings -/

/-- The words that stand for kinds without parts. -/
def keywords : List String := ["bool", "integer", "float", "string", "any", "map"]

/-- A name of a record type that can be written where a kind is expected. -/
structure PlainName (name : String) : Prop where
  nonempty : name ≠ ""
  head : ∀ c, name.toList.head? = some c → isBlank c = false
  last : ∀ c, name.toList.getLast? = some c → isBlank c = false
  unmarked : name.toList.getLast? ≠ some '?'
  unbracketed : ¬ (name.toList.head? = some '[' ∧ name.toList.getLast? = some ']')
  noKeyword : name ∉ keywords

/-- The spellings of a kind: its written form, and any blanks around the text of any kind in it. -/
inductive Spells : Kind → List Char → Prop where
  | text (kind : Kind) : Spells kind kind.text.toList
  | padded {kind : Kind} {before cs after : List Char} (hbefore : Blanks before)
      (hafter : Blanks after) (inner : Spells kind cs) : Spells kind (before ++ cs ++ after)
  | sequence {item : Kind} {cs : List Char} (inner : Spells item cs) :
      Spells (.sequence item) ('[' :: cs ++ [']'])
  | optional {kind : Kind} {cs : List Char} (inner : Spells kind cs) :
      Spells (.optional kind) (cs ++ ['?'])

namespace Form

/-! ## Reading from the outside in -/

/-- The reader calls itself on a text for another one: without its mark, or without its brackets. -/
def Calls (inner cs : List Char) : Prop :=
  before? '?' (trim cs) = some inner ∨
    before? '?' (trim cs) = none ∧ bracketed? (trim cs) = some inner

/-- No text keeps the reader calling itself forever. -/
theorem wellFounded_calls : WellFounded Calls := by
  refine Subrelation.wf (r := InvImage (· < ·) List.length) ?_ (InvImage.wf _ Nat.lt_wfRel.wf)
  intro inner cs h
  have hlength := Text.length_trim_le cs
  rcases h with h | ⟨-, h⟩
  · exact Nat.lt_of_lt_of_le (length_of_before? h) hlength
  · exact Nat.lt_of_lt_of_le (length_of_bracketed? h) hlength

section Reading

variable {cs inner : List Char}

theorem before?_eq_some_iff {last : Char} :
    before? last cs = some inner ↔ cs = inner ++ [last] := by
  unfold before?
  constructor
  · intro h
    split at h
    · rename_i hlast
      obtain ⟨front, rfl⟩ := List.getLast?_eq_some_iff.mp hlast
      rw [List.dropLast_concat] at h
      cases h
      rfl
    · cases h
  · rintro rfl
    rw [if_pos List.getLast?_concat, List.dropLast_concat]

theorem before?_eq_none_iff {last : Char} : before? last cs = none ↔ cs.getLast? ≠ some last := by
  unfold before?
  split
  · rename_i h
    exact ⟨fun hnone => absurd hnone (Option.some_ne_none _), fun hne => absurd h hne⟩
  · rename_i h
    exact ⟨fun _ => h, fun _ => rfl⟩

theorem bracketed?_eq_some_iff : bracketed? cs = some inner ↔ cs = '[' :: inner ++ [']'] := by
  unfold bracketed?
  split
  · rw [before?_eq_some_iff, List.cons_append, List.cons_inj_right]
  · rename_i hother
    exact ⟨fun h => absurd h.symm (Option.some_ne_none _), fun h => absurd h (hother _)⟩

theorem bracketed?_eq_none_iff :
    bracketed? cs = none ↔ ¬ (cs.head? = some '[' ∧ cs.getLast? = some ']') := by
  have hsome : (∃ inner, bracketed? cs = some inner) ↔
      cs.head? = some '[' ∧ cs.getLast? = some ']' := by
    simp only [bracketed?_eq_some_iff]
    constructor
    · rintro ⟨inner, rfl⟩
      exact ⟨rfl, List.getLast?_concat⟩
    · rintro ⟨hhead, hlast⟩
      obtain ⟨rest, rfl⟩ := List.head?_eq_some_iff.mp hhead
      obtain ⟨front, hfront⟩ := List.getLast?_eq_some_iff.mp hlast
      cases front with
      | nil => exact absurd (List.cons.inj hfront).1 (by decide)
      | cons c inner =>
        rw [List.cons_append, List.cons.injEq] at hfront
        exact ⟨inner, by rw [hfront.2, List.cons_append]⟩
  rw [← hsome, Option.eq_none_iff_forall_ne_some, not_exists]

/-! One equation for each layer -/

theorem ofChars?_of_before (h : before? '?' (trim cs) = some inner) :
    ofChars? cs = (ofChars? inner).map .optional := by
  rw [ofChars?.eq_def]
  split
  · rename_i inner' h'
    rw [h] at h'
    cases h'
    rfl
  · rename_i h'
    rw [h] at h'
    cases h'

theorem ofChars?_of_bracketed (hmark : before? '?' (trim cs) = none)
    (h : bracketed? (trim cs) = some inner) : ofChars? cs = (ofChars? inner).map .sequence := by
  rw [ofChars?.eq_def]
  split
  · rename_i h'
    rw [hmark] at h'
    cases h'
  · split
    · rename_i inner' h'
      rw [h] at h'
      cases h'
      rfl
    · rename_i h'
      rw [h] at h'
      cases h'

theorem ofChars?_of_word (hmark : before? '?' (trim cs) = none)
    (hbrackets : bracketed? (trim cs) = none) : ofChars? cs = ofWord? (trim cs) := by
  rw [ofChars?.eq_def]
  split
  · rename_i h'
    rw [hmark] at h'
    cases h'
  · split
    · rename_i h'
      rw [hbrackets] at h'
      cases h'
    · rfl

/-- The three things that a text can be to the reader. -/
theorem calls_cases (cs : List Char) :
    (∃ inner, before? '?' (trim cs) = some inner) ∨
      (∃ inner, before? '?' (trim cs) = none ∧ bracketed? (trim cs) = some inner) ∨
      before? '?' (trim cs) = none ∧ bracketed? (trim cs) = none := by
  cases hmark : before? '?' (trim cs) with
  | some inner => exact .inl ⟨inner, rfl⟩
  | none =>
    cases hbrackets : bracketed? (trim cs) with
    | some inner => exact .inr (.inl ⟨inner, rfl, rfl⟩)
    | none => exact .inr (.inr ⟨rfl, rfl⟩)

/-- The reader takes off a layer and calls itself, or it is left with a word. -/
theorem ofChars?_step (cs : List Char) :
    (∃ inner layer, Calls inner cs ∧ ofChars? cs = (ofChars? inner).map layer) ∨
      ofChars? cs = ofWord? (trim cs) := by
  rcases calls_cases cs with ⟨inner, hmark⟩ | ⟨inner, hmark, hbrackets⟩ | ⟨hmark, hbrackets⟩
  · exact .inl ⟨inner, _, .inl hmark, ofChars?_of_before hmark⟩
  · exact .inl ⟨inner, _, .inr ⟨hmark, hbrackets⟩, ofChars?_of_bracketed hmark hbrackets⟩
  · exact .inr (ofChars?_of_word hmark hbrackets)

/-- Only what is left without the blanks at the ends counts. -/
theorem ofChars?_congr {ds : List Char} (h : trim cs = trim ds) : ofChars? cs = ofChars? ds := by
  have hcalls := calls_cases ds
  rw [← h] at hcalls
  rcases hcalls with ⟨inner, hmark⟩ | ⟨inner, hmark, hbrackets⟩ | ⟨hmark, hbrackets⟩
  · have hmark' : before? '?' (trim ds) = some inner := h ▸ hmark
    rw [ofChars?_of_before hmark, ofChars?_of_before hmark']
  · have hmark' : before? '?' (trim ds) = none := h ▸ hmark
    have hbrackets' : bracketed? (trim ds) = some inner := h ▸ hbrackets
    rw [ofChars?_of_bracketed hmark hbrackets, ofChars?_of_bracketed hmark' hbrackets']
  · have hmark' : before? '?' (trim ds) = none := h ▸ hmark
    have hbrackets' : bracketed? (trim ds) = none := h ▸ hbrackets
    rw [ofChars?_of_word hmark hbrackets, ofChars?_of_word hmark' hbrackets', h]

/-- A mark is taken off whatever stands in front of it. -/
theorem ofChars?_optional (cs : List Char) :
    ofChars? (cs ++ ['?']) = (ofChars? cs).map .optional := by
  have hmark : before? '?' (trim (cs ++ ['?'])) = some (cs.dropWhile isBlank) :=
    before?_eq_some_iff.mpr (Text.trim_snoc (by decide) cs)
  rw [ofChars?_of_before hmark, ofChars?_congr (Text.trim_dropWhile cs)]

/-- Brackets are taken off whatever stands between them. -/
theorem ofChars?_sequence (cs : List Char) :
    ofChars? ('[' :: cs ++ [']']) = (ofChars? cs).map .sequence := by
  have htrim : trim ('[' :: cs ++ [']']) = '[' :: cs ++ [']'] := by
    rw [Text.trim_snoc (by decide), List.dropWhile_cons_of_neg (by decide)]
  refine ofChars?_of_bracketed ?_ ?_
  · rw [htrim, before?_eq_none_iff, List.getLast?_concat]
    decide
  · rw [htrim, bracketed?_eq_some_iff]

end Reading

/-! ## Words -/

section Words

theorem ofWord?_eq_named_iff {word : List Char} {name : String} :
    ofWord? word = some (.named name) ↔
      word ≠ [] ∧ String.ofList word ∉ keywords ∧ String.ofList word = name := by
  have hkeyword (k : String) : word = k.toList ↔ String.ofList word = k := by
    rw [← String.toList_inj, String.toList_ofList]
  unfold ofWord?
  simp only [hkeyword, List.isEmpty_iff, keywords, List.mem_cons, List.not_mem_nil, or_false,
    not_or]
  generalize String.ofList word = w
  split_ifs <;> simp_all

theorem ofWord?_ne_layer (word : List Char) (form : Form) :
    ofWord? word ≠ some (.sequence form) ∧ ofWord? word ≠ some (.optional form) := by
  unfold ofWord?
  constructor
  · split_ifs <;> simp
  · split_ifs <;> simp

/-- A plain name stands for the record type of that name. -/
theorem ofChars?_name {name : String} (h : PlainName name) :
    ofChars? name.toList = some (.named name) := by
  have htrim := Text.trim_eq_self h.head h.last
  have hmark : before? '?' (trim name.toList) = none := by
    rw [htrim, before?_eq_none_iff]
    exact h.unmarked
  have hbrackets : bracketed? (trim name.toList) = none := by
    rw [htrim]
    exact bracketed?_eq_none_iff.mpr h.unbracketed
  rw [ofChars?_of_word hmark hbrackets, htrim, ofWord?_eq_named_iff, String.ofList_toList]
  exact ⟨fun heq => h.nonempty (String.toList_eq_nil_iff.mp heq), h.noKeyword, rfl⟩

/-- What is read as a name is a plain one. -/
theorem plainName_of_ofChars? {cs : List Char} {form : Form} (h : ofChars? cs = some form) :
    ∀ name ∈ form.names, PlainName name := by
  induction cs using wellFounded_calls.induction generalizing form with
  | _ cs ih =>
    rcases calls_cases cs with ⟨inner, hmark⟩ | ⟨inner, hmark, hbrackets⟩ | ⟨hmark, hbrackets⟩
    · rw [ofChars?_of_before hmark] at h
      obtain ⟨form, hform, rfl⟩ := Option.map_eq_some_iff.mp h
      have hinner := ih inner (.inl hmark) hform
      exact hinner
    · rw [ofChars?_of_bracketed hmark hbrackets] at h
      obtain ⟨form, hform, rfl⟩ := Option.map_eq_some_iff.mp h
      have hinner := ih inner (.inr ⟨hmark, hbrackets⟩) hform
      exact hinner
    · rw [ofChars?_of_word hmark hbrackets] at h
      cases form with
      | named type =>
        obtain ⟨hne, hword, rfl⟩ := ofWord?_eq_named_iff.mp h
        intro name hname
        rw [List.mem_singleton.mp hname]
        refine ⟨?_, ?_, ?_, ?_, ?_, hword⟩
        · rw [Ne, ← String.toList_eq_nil_iff, String.toList_ofList]
          exact hne
        all_goals rw [String.toList_ofList]
        · exact fun c => Text.head?_trim
        · exact fun c => Text.getLast?_trim
        · exact before?_eq_none_iff.mp hmark
        · exact bracketed?_eq_none_iff.mp hbrackets
      | sequence item => exact absurd h (ofWord?_ne_layer _ item).1
      | optional inner => exact absurd h (ofWord?_ne_layer _ inner).2
      | _ => exact fun name hname => absurd hname List.not_mem_nil

end Words

end Form

open Form

/-! ## Kinds -/

theorem ofChars?_text {kind : Kind} (h : ∀ name ∈ kind.form.names, PlainName name) :
    ofChars? kind.text.toList = some kind.form := by
  induction kind using Kind.text.induct with
  | case7 item ih =>
    have htext : (Kind.sequence item).text.toList = '[' :: item.text.toList ++ [']'] := by
      rw [text, String.toList_append, String.toList_append]
      rfl
    rw [htext, ofChars?_sequence, ih h]
    rfl
  | case8 inner ih =>
    rw [text, String.toList_append]
    exact (ofChars?_optional _).trans (by rw [ih h]; rfl)
  | case9 name fields => exact ofChars?_name (h name List.mem_cons_self)
  | _ => exact (ofChars?_of_word (by decide) (by decide)).trans (by decide)

/-- A kind is read back from each of its spellings. -/
theorem Spells.ofChars?_eq {kind : Kind} {cs : List Char} (h : Spells kind cs)
    (hplain : ∀ name ∈ kind.form.names, PlainName name) : ofChars? cs = some kind.form := by
  induction h with
  | text kind => exact ofChars?_text hplain
  | padded hbefore hafter _ ih =>
    rw [ofChars?_congr (Text.trim_append hbefore hafter _), ih hplain]
  | sequence _ ih =>
    rw [ofChars?_sequence, ih hplain]
    rfl
  | optional _ ih =>
    rw [ofChars?_optional, ih hplain]
    rfl

end Kind

end Polydoc
