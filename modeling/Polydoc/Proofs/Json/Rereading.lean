/-
  Proofs/Json/Rereading.lean --- a document that is written as JSON and read again.

  Writing drops indirect layers and makes mappings of records; what is read is the plain tree that
  is left, if no float stands in it and it is nested no deeper than the reader allows.  The reader
  has an amount of fuel for each value: the length of the text of a value is always enough for it.
-/
import Mathlib.Data.List.DropRight
import Polydoc.Proofs.Json.Scalars
import Polydoc.Proofs.Node.Plain

set_option autoImplicit false

namespace Polydoc

namespace Node

/-! ## Documents that can be read again -/

/-- A document that JSON text holds without loss: its dictionaries have each key once, as every
dictionary has, and no float stands in it. -/
structure Writable (n : Node) : Prop where
  keyed : ∀ entries, Part (.mapping entries) n → Entries.Distinct entries
  named : ∀ type held, Part (.record type held) n → Entries.Distinct held
  floatFree : ∀ x, ¬ Part (.float x) n

theorem Writable.part {m n : Node} (h : Writable n) (hp : Part m n) : Writable m :=
  ⟨fun entries he => h.keyed entries (he.trans hp),
    fun type held hr => h.named type held (hr.trans hp), fun x hx => h.floatFree x (hx.trans hp)⟩

theorem Writable.not_float {s : Scalar} (h : Writable (.scalar s)) (x : Binary64) :
    s ≠ .float x := by
  rintro rfl
  exact h.floatFree x .here

/-! What is made of writable parts is writable -/

theorem writable_null : Writable .null := by
  constructor
  · intro entries h
    cases h
  · intro type held h
    cases h
  · intro x h
    cases h

theorem writable_scalar {s : Scalar} (hs : ∀ x, s ≠ .float x) : Writable (.scalar s) := by
  constructor
  · intro entries h
    cases h
  · intro type held h
    cases h
  · intro x h
    cases h
    exact hs x rfl

theorem writable_sequence {items : List Node} (h : ∀ n ∈ items, Writable n) :
    Writable (.sequence items) := by
  constructor
  · intro entries hp
    cases hp with
    | item mem inner => exact (h _ mem).keyed entries inner
  · intro type held hp
    cases hp with
    | item mem inner => exact (h _ mem).named type held inner
  · intro x hp
    cases hp with
    | item mem inner => exact (h _ mem).floatFree x inner

theorem writable_mapping {entries : List (String × Node)} (hd : Entries.Distinct entries)
    (h : ∀ e ∈ entries, Writable e.2) : Writable (.mapping entries) := by
  constructor
  · intro others hp
    cases hp with
    | here => exact hd
    | entry mem inner => exact (h _ mem).keyed others inner
  · intro type held hp
    cases hp with
    | entry mem inner => exact (h _ mem).named type held inner
  · intro x hp
    cases hp with
    | entry mem inner => exact (h _ mem).floatFree x inner

theorem writable_record (type : RecordType) {held : List (String × Node)}
    (hd : Entries.Distinct held) (h : ∀ e ∈ held, Writable e.2) : Writable (.record type held) := by
  constructor
  · intro entries hp
    cases hp with
    | field mem inner => exact (h _ mem).keyed entries inner
  · intro other values hp
    cases hp with
    | here => exact hd
    | field mem inner => exact (h _ mem).named other values inner
  · intro x hp
    cases hp with
    | field mem inner => exact (h _ mem).floatFree x inner

theorem Writable.indirect {n : Node} (h : Writable n) : Writable (.indirect n) := by
  constructor
  · intro entries hp
    cases hp with
    | layer inner => exact h.keyed entries inner
  · intro type held hp
    cases hp with
    | layer inner => exact h.named type held inner
  · intro x hp
    cases hp with
    | layer inner => exact h.floatFree x inner

mutual

/-- How many sequences, mappings and records stand inside one another in a node. -/
def nesting : Node → Nat
  | .null => 0
  | .scalar _ => 0
  | .sequence items => nestingItems items + 1
  | .mapping entries => nestingEntries entries + 1
  | .record _ fields => nestingEntries fields + 1
  | .indirect n => n.nesting

/-- How many stand inside one another in the items. -/
def nestingItems : List Node → Nat
  | [] => 0
  | n :: rest => max n.nesting (nestingItems rest)

/-- How many stand inside one another in the values of entries. -/
def nestingEntries : List (String × Node) → Nat
  | [] => 0
  | (_, n) :: rest => max n.nesting (nestingEntries rest)

end

theorem keys_plainEntries (entries : List (String × Node)) :
    Entries.keys (plainEntries entries) = Entries.keys entries := by
  induction entries with
  | nil => rfl
  | cons e rest ih =>
    obtain ⟨key, n⟩ := e
    exact congrArg (key :: ·) ih

end Node

namespace Json

open Node

/-! ## Blanks -/

section Blanks

theorem skip_cons {c : Char} (h : isSpace c = false) (cs : List Char) :
    skip (c :: cs) = c :: cs :=
  List.dropWhile_cons_of_neg (by simp [h])

theorem skip_skip (cs : List Char) : skip (skip cs) = skip cs :=
  List.dropWhile_idempotent isSpace cs

theorem isSpace_of_mem_newline {form : Form} {level : Nat} {c : Char}
    (h : c ∈ form.newline level) : isSpace c = true := by
  cases form with
  | compact => cases h
  | pretty =>
    rcases List.mem_cons.mp h with rfl | hblank
    · rfl
    · rw [List.eq_of_mem_replicate hblank]
      rfl

theorem skip_newline (form : Form) (level : Nat) (cs : List Char) :
    skip (form.newline level ++ cs) = skip cs :=
  List.dropWhile_append_of_pos fun _ h => isSpace_of_mem_newline h

/-! Blanks in front do not matter -/

variable (fuel depth : Nat) (cs : List Char)

theorem value_skip : value fuel depth (skip cs) = value fuel depth cs := by
  cases fuel with
  | zero => rfl
  | succ fuel => rw [value, value, skip_skip]

theorem items_skip : items fuel depth (skip cs) = items fuel depth cs := by
  cases fuel with
  | zero => rfl
  | succ fuel => rw [items, items, value_skip]

theorem members_skip : members fuel depth (skip cs) = members fuel depth cs := by
  cases fuel with
  | zero => rfl
  | succ fuel => rw [members, members, skip_skip]

variable (form : Form) (level : Nat)

theorem items_newline : items fuel depth (form.newline level ++ cs) = items fuel depth cs := by
  rw [← items_skip, skip_newline, items_skip]

theorem members_newline :
    members fuel depth (form.newline level ++ cs) = members fuel depth cs := by
  rw [← members_skip, skip_newline, members_skip]

end Blanks

/-! ## What values start with -/

/-- A text that starts with the first character of a value: neither a blank nor what closes a list
of items or members. -/
def StartsValue (cs : List Char) : Prop :=
  ∃ c rest, cs = c :: rest ∧ isSpace c = false ∧ c ≠ ']' ∧ c ≠ '\x7d'

theorem StartsValue.append {cs : List Char} (h : StartsValue cs) (more : List Char) :
    StartsValue (cs ++ more) := by
  obtain ⟨c, rest, rfl, hc⟩ := h
  exact ⟨c, rest ++ more, rfl, hc⟩

/-- The first character of an integer. -/
def Numeric (c : Char) : Prop := c = '-' ∨ c.isDigit = true

theorem Numeric.ne {c d : Char} (h : Numeric c) (hsign : d ≠ '-') (hdigit : d.isDigit = false) :
    c ≠ d := by
  rintro rfl
  rcases h with rfl | h
  · exact hsign rfl
  · rw [hdigit] at h
    cases h

theorem Numeric.isSpace_eq {c : Char} (h : Numeric c) : isSpace c = false := by
  have hblank := h.ne (d := ' ') (by decide) (by decide)
  have htab := h.ne (d := '\t') (by decide) (by decide)
  have hline := h.ne (d := '\n') (by decide) (by decide)
  have hreturn := h.ne (d := '\r') (by decide) (by decide)
  simp [isSpace, hblank, htab, hline, hreturn]

theorem exists_cons_decimal (i : Int) :
    ∃ c rest, (Text.decimal i).toList = c :: rest ∧ Numeric c := by
  rw [Text.decimal, String.toList_ofList]
  by_cases hi : i < 0
  · rw [if_pos hi]
    exact ⟨'-', _, rfl, .inl rfl⟩
  · rw [if_neg hi, List.nil_append]
    obtain ⟨c, rest, h, hc⟩ := Text.exists_cons_toDigits i.natAbs
    exact ⟨c, rest, h, .inr hc⟩

theorem startsValue_scalarChars {s : Scalar} (h : ∀ x, s ≠ .float x) :
    StartsValue (scalarChars s) := by
  cases s with
  | bool b =>
    cases b with
    | true => exact ⟨'t', _, rfl, by decide⟩
    | false => exact ⟨'f', _, rfl, by decide⟩
  | integer i =>
    obtain ⟨c, rest, hcs, hc⟩ := exists_cons_decimal i.toInt
    exact ⟨c, rest, hcs, hc.isSpace_eq, hc.ne (by decide) (by decide),
      hc.ne (by decide) (by decide)⟩
  | float x => exact absurd rfl (h x)
  | string text => exact ⟨'"', _, rfl, by decide⟩

theorem startsValue_bracketed (form : Form) (level : Nat) {opening : Char} (closing : Char)
    (h : isSpace opening = false ∧ opening ≠ ']' ∧ opening ≠ '\x7d') (parts : List (List Char)) :
    StartsValue (form.bracketed level opening closing parts) := by
  unfold Form.bracketed
  split
  · exact ⟨opening, _, rfl, h⟩
  · exact ⟨opening, _, rfl, h⟩

theorem startsValue_chars (form : Form) (level : Nat) : (n : Node) → Writable n →
    StartsValue (chars form level n)
  | .null, _ => ⟨'n', _, rfl, by decide⟩
  | .scalar _, h => startsValue_scalarChars h.not_float
  | .sequence _, _ => startsValue_bracketed form level ']' (by decide) _
  | .mapping _, _ => startsValue_bracketed form level '\x7d' (by decide) _
  | .record _ _, _ => startsValue_bracketed form level '\x7d' (by decide) _
  | .indirect n, h => startsValue_chars form level n (h.part (.layer .here))

theorem startsValue_joined {form : Form} {level : Nat} {part : List Char}
    (h : StartsValue part) (others : List (List Char)) :
    StartsValue (form.joined level (part :: others)) := by
  cases others with
  | nil => exact h
  | cons other others => exact (h.append _).append _

theorem StartsValue.skip_newline {cs : List Char} (h : StartsValue cs) (form : Form) (level : Nat) :
    StartsValue (skip (form.newline level ++ cs)) := by
  obtain ⟨c, rest, rfl, hc⟩ := h
  rw [Json.skip_newline, skip_cons hc.1]
  exact ⟨c, rest, rfl, hc⟩

/-! ## What the first character decides -/

theorem value_quote (fuel depth : Nat) (cs : List Char) :
    value (fuel + 1) depth ('"' :: cs) =
      (text cs).map fun (s, rest) => (Node.string (String.ofList s), rest) :=
  rfl

/-- What starts like a number is read as one. -/
theorem value_numeric {c : Char} (h : Numeric c) (fuel depth : Nat) (cs : List Char) :
    value (fuel + 1) depth (c :: cs) =
      (number (c :: cs)).map fun (s, rest) => (Node.scalar s, rest) := by
  have hne (d : Char) (hd : d ≠ '-' ∧ d.isDigit = false) : c ≠ d := h.ne hd.1 hd.2
  rw [value, skip_cons h.isSpace_eq]
  split
  · rename_i heq
    cases heq
  · rename_i heq
    exact absurd (List.cons.inj heq).1 (hne 'n' (by decide))
  · rename_i heq
    exact absurd (List.cons.inj heq).1 (hne 't' (by decide))
  · rename_i heq
    exact absurd (List.cons.inj heq).1 (hne 'f' (by decide))
  · rename_i heq
    exact absurd (List.cons.inj heq).1 (hne '"' (by decide))
  · rename_i heq
    exact absurd (List.cons.inj heq).1 (hne '[' (by decide))
  · rename_i heq
    exact absurd (List.cons.inj heq).1 (hne '\x7b' (by decide))
  · rfl

/-- Behind an opening bracket stand items, unless it is closed at once. -/
theorem value_bracket {cs : List Char} (h : StartsValue (skip cs)) (fuel depth : Nat) :
    value (fuel + 1) (depth + 1) ('[' :: cs) =
      (items fuel depth cs).map fun (ns, rest) => (Node.sequence ns, rest) := by
  obtain ⟨c, rest, hskip, _, hc, _⟩ := h
  have hopening : skip ('[' :: cs) = '[' :: cs := skip_cons rfl cs
  rw [← items_skip fuel depth cs]
  simp only [value, hopening, hskip]
  split
  · rename_i heq
    exact absurd (List.cons.inj heq).1 hc
  · rfl

/-- Behind an opening brace stand members, unless it is closed at once. -/
theorem value_brace {cs : List Char} (h : StartsValue (skip cs)) (fuel depth : Nat) :
    value (fuel + 1) (depth + 1) ('\x7b' :: cs) =
      (members fuel depth cs).map fun (es, rest) => (Node.mapping (Entries.ofList es), rest) := by
  obtain ⟨c, rest, hskip, _, _, hc⟩ := h
  have hopening : skip ('\x7b' :: cs) = '\x7b' :: cs := skip_cons rfl cs
  rw [← members_skip fuel depth cs]
  simp only [value, hopening, hskip]
  split
  · rename_i heq
    exact absurd (List.cons.inj heq).1 hc
  · rfl

/-! ## Reading values again -/

theorem ends_cons {c : Char} (cs : List Char)
    (h : c.isDigit = false ∧ c ≠ '.' ∧ c ≠ 'e' ∧ c ≠ 'E') : Ends (c :: cs) := by
  intro d hd
  cases hd
  exact h

theorem ends_newline_append {cs : List Char} (h : Ends cs) (form : Form) (level : Nat) :
    Ends (form.newline level ++ cs) := by
  cases form with
  | compact => exact h
  | pretty => exact ends_cons _ (by decide)

/-- A value is read as its plain tree, whatever stands behind it. -/
def Rereads (form : Form) (n : Node) : Prop :=
  ∀ {level depth fuel : Nat} {rest : List Char}, n.nesting ≤ depth →
    (chars form level n).length < fuel → Ends rest →
    value fuel depth (chars form level n ++ rest) = some (n.plain, rest)

/-- Items, of which there is one at least, are read as their plain trees, up to a closing
bracket. -/
def ItemsReread (form : Form) (given : List Node) : Prop :=
  given ≠ [] → ∀ {level outer depth fuel : Nat} {rest : List Char},
    nestingItems given ≤ depth →
    (form.joined level (itemChars form level given)).length + 1 < fuel →
    items fuel depth (form.joined level (itemChars form level given) ++
      (form.newline outer ++ ']' :: rest)) = some (plainItems given, rest)

/-- Entries, of which there is one at least, are read as the plain trees under their keys, up to a
closing brace. -/
def MembersReread (form : Form) (given : List (String × Node)) : Prop :=
  given ≠ [] → ∀ {level outer depth fuel : Nat} {rest : List Char},
    nestingEntries given ≤ depth →
    (form.joined level (memberChars form level given)).length + 1 < fuel →
    members fuel depth (form.joined level (memberChars form level given) ++
      (form.newline outer ++ '\x7d' :: rest)) = some (plainEntries given, rest)

section Cases

variable {form : Form}

theorem rereads_null : Rereads form .null := by
  intro level depth fuel rest _ hfuel _
  obtain ⟨fuel, rfl⟩ : ∃ k, fuel = k + 1 := ⟨fuel - 1, by omega⟩
  rfl

theorem rereads_scalar {s : Scalar} (h : ∀ x, s ≠ .float x) : Rereads form (.scalar s) := by
  intro level depth fuel rest _ hfuel hrest
  obtain ⟨fuel, rfl⟩ : ∃ k, fuel = k + 1 := ⟨fuel - 1, by omega⟩
  cases s with
  | bool b =>
    cases b with
    | true => rfl
    | false => rfl
  | integer i =>
    obtain ⟨c, cs, hcs, hc⟩ := exists_cons_decimal i.toInt
    have hnumber := number_decimal i hrest
    rw [hcs, List.cons_append] at hnumber
    rw [chars, scalarChars, hcs, List.cons_append, value_numeric hc, hnumber]
    rfl
  | float x => exact absurd rfl (h x)
  | string s =>
    have hchars : chars form level (.scalar (.string s)) ++ rest =
        '"' :: (s.toList.flatMap quotedChar ++ '"' :: rest) := by
      simp [chars, scalarChars, quoted]
    rw [hchars, value_quote, text_flatMap_quotedChar]
    show some (Node.string (String.ofList s.toList), rest) = some (.string s, rest)
    rw [String.ofList_toList]

/-! Lists of items and of members -/

section Lists

variable {fuel depth : Nat} {n : Node} {cs left rest : List Char}

theorem items_last (hvalue : value fuel depth cs = some (n, left))
    (hleft : skip left = ']' :: rest) : items (fuel + 1) depth cs = some ([n], rest) := by
  simp only [items, hvalue, hleft]

theorem items_more (hvalue : value fuel depth cs = some (n, left))
    (hleft : skip left = ',' :: rest) :
    items (fuel + 1) depth cs = (items fuel depth rest).map fun (ns, rest) => (n :: ns, rest) := by
  simp only [items, hvalue, hleft]

/-- A key is read up to the colon behind it, and the value starts behind that. -/
theorem exists_skip_quoted (form : Form) (key : String) (fuel depth : Nat) (cs : List Char) :
    ∃ body after, skip (quoted key ++ (form.colon ++ cs)) = '"' :: body ∧
      text body = some (key.toList, form.colon ++ cs) ∧ skip (form.colon ++ cs) = ':' :: after ∧
      value fuel depth after = value fuel depth cs := by
  have hkey : quoted key ++ (form.colon ++ cs) =
      '"' :: (key.toList.flatMap quotedChar ++ '"' :: (form.colon ++ cs)) := by
    simp [quoted]
  have htext := text_flatMap_quotedChar key.toList (form.colon ++ cs)
  cases form with
  | compact => exact ⟨_, cs, by rw [hkey]; rfl, htext, rfl, rfl⟩
  | pretty =>
    refine ⟨_, ' ' :: cs, by rw [hkey]; rfl, htext, rfl, ?_⟩
    rw [← value_skip, ← value_skip fuel depth cs]
    rfl

theorem members_last (key : String) (hvalue : value fuel depth cs = some (n, left))
    (hleft : skip left = '\x7d' :: rest) :
    members (fuel + 1) depth (quoted key ++ (form.colon ++ cs)) = some ([(key, n)], rest) := by
  obtain ⟨body, after, hquote, htext, hcolon, hafter⟩ := exists_skip_quoted form key fuel depth cs
  simp only [members, hquote, htext, hcolon, hafter, hvalue, hleft, String.ofList_toList]

theorem members_more (key : String) (hvalue : value fuel depth cs = some (n, left))
    (hleft : skip left = ',' :: rest) :
    members (fuel + 1) depth (quoted key ++ (form.colon ++ cs)) =
      (members fuel depth rest).map fun (es, rest) => ((key, n) :: es, rest) := by
  obtain ⟨body, after, hquote, htext, hcolon, hafter⟩ := exists_skip_quoted form key fuel depth cs
  simp only [members, hquote, htext, hcolon, hafter, hvalue, hleft, String.ofList_toList]

end Lists

/-! Brackets with something in them -/

section Bracketed

variable {level : Nat} {opening closing : Char} {parts : List (List Char)} (h : parts ≠ [])

include h

theorem bracketed_append (rest : List Char) :
    form.bracketed level opening closing parts ++ rest =
      opening :: (form.newline (level + 1) ++ (form.joined (level + 1) parts ++
        (form.newline level ++ closing :: rest))) := by
  have hparts : parts.isEmpty = false := by simpa using h
  simp [Form.bracketed, hparts]

theorem length_joined_le (form : Form) (level : Nat) (opening closing : Char) :
    (form.joined (level + 1) parts).length + 2 ≤
      (form.bracketed level opening closing parts).length := by
  have hparts : parts.isEmpty = false := by simpa using h
  simp only [Form.bracketed, hparts, Bool.false_eq_true, if_false, List.cons_append,
    List.length_cons, List.length_append, List.length_nil]
  omega

end Bracketed

theorem rereads_sequence {given : List Node} (h : ItemsReread form given)
    (hw : ∀ n ∈ given, Writable n) : Rereads form (.sequence given) := by
  intro level depth fuel rest hdepth hfuel _
  rw [nesting] at hdepth
  obtain ⟨fuel, rfl⟩ : ∃ k, fuel = k + 1 := ⟨fuel - 1, by omega⟩
  obtain ⟨depth, rfl⟩ : ∃ k, depth = k + 1 := ⟨depth - 1, by omega⟩
  cases given with
  | nil => rfl
  | cons n others =>
    have hparts : itemChars form (level + 1) (n :: others) ≠ [] := List.cons_ne_nil _ _
    have hlength := length_joined_le hparts form level '[' ']'
    have hstarts : StartsValue
        (form.joined (level + 1) (itemChars form (level + 1) (n :: others))) :=
      startsValue_joined (startsValue_chars form _ n (hw n List.mem_cons_self)) _
    rw [chars] at hfuel ⊢
    rw [bracketed_append hparts, value_bracket ((hstarts.append _).skip_newline form _),
      items_newline, h (List.cons_ne_nil n others) (by omega) (by omega)]
    rfl

theorem rereads_mapping {given : List (String × Node)} (h : MembersReread form given)
    (hkeys : Entries.Distinct given) : Rereads form (.mapping given) := by
  intro level depth fuel rest hdepth hfuel _
  rw [nesting] at hdepth
  obtain ⟨fuel, rfl⟩ : ∃ k, fuel = k + 1 := ⟨fuel - 1, by omega⟩
  obtain ⟨depth, rfl⟩ : ∃ k, depth = k + 1 := ⟨depth - 1, by omega⟩
  cases given with
  | nil => rfl
  | cons e others =>
    obtain ⟨key, n⟩ := e
    have hparts : memberChars form (level + 1) ((key, n) :: others) ≠ [] := List.cons_ne_nil _ _
    have hlength := length_joined_le hparts form level '\x7b' '\x7d'
    have hstarts : StartsValue
        (form.joined (level + 1) (memberChars form (level + 1) ((key, n) :: others))) :=
      startsValue_joined ⟨'"', _, rfl, by decide⟩ _
    have hread : Entries.ofList (plainEntries ((key, n) :: others)) =
        plainEntries ((key, n) :: others) := by
      refine Entries.ofList_of_distinct ?_
      rw [Entries.Distinct, keys_plainEntries]
      exact hkeys
    rw [chars] at hfuel ⊢
    rw [bracketed_append hparts, value_brace ((hstarts.append _).skip_newline form _),
      members_newline, h (List.cons_ne_nil _ others) (by omega) (by omega)]
    show some (Node.mapping (Entries.ofList (plainEntries ((key, n) :: others))), rest) = _
    rw [hread]
    rfl

/-- A record is written as the mapping of its fields. -/
theorem rereads_record (type : RecordType) {given : List (String × Node)}
    (h : MembersReread form given) (hkeys : Entries.Distinct given) :
    Rereads form (.record type given) :=
  rereads_mapping h hkeys

theorem joined_cons_cons (level : Nat) (part other : List Char) (others : List (List Char)) :
    form.joined level (part :: other :: others) =
      part ++ ',' :: (form.newline level ++ form.joined level (other :: others)) := by
  simp [Form.joined]

theorem itemsReread_cons {n : Node} {others : List Node} (hfirst : Rereads form n)
    (hothers : ItemsReread form others) : ItemsReread form (n :: others) := by
  intro _ level outer depth fuel rest hdepth hfuel
  rw [nestingItems] at hdepth
  obtain ⟨fuel, rfl⟩ : ∃ k, fuel = k + 1 := ⟨fuel - 1, by omega⟩
  cases others with
  | nil =>
    have hends : Ends (form.newline outer ++ ']' :: rest) :=
      ends_newline_append (ends_cons rest (by decide)) form outer
    simp only [itemChars, Form.joined] at hfuel ⊢
    refine items_last (hfirst (by omega) (by omega) hends) ?_
    rw [skip_newline, skip_cons rfl]
  | cons other others =>
    have hjoined : form.joined level (itemChars form level (n :: other :: others)) =
        chars form level n ++ ',' :: (form.newline level ++
          form.joined level (itemChars form level (other :: others))) :=
      joined_cons_cons level _ _ _
    rw [hjoined] at hfuel ⊢
    simp only [List.length_append, List.length_cons] at hfuel
    rw [List.append_assoc, List.cons_append, List.append_assoc,
      items_more (hfirst (by omega) (by omega) (ends_cons _ (by decide))) (skip_cons rfl _),
      items_newline, hothers (List.cons_ne_nil _ _) (by omega) (by omega)]
    rfl

theorem membersReread_cons {key : String} {n : Node} {others : List (String × Node)}
    (hfirst : Rereads form n) (hothers : MembersReread form others) :
    MembersReread form ((key, n) :: others) := by
  intro _ level outer depth fuel rest hdepth hfuel
  rw [nestingEntries] at hdepth
  obtain ⟨fuel, rfl⟩ : ∃ k, fuel = k + 1 := ⟨fuel - 1, by omega⟩
  cases others with
  | nil =>
    have hends : Ends (form.newline outer ++ '\x7d' :: rest) :=
      ends_newline_append (ends_cons rest (by decide)) form outer
    simp only [memberChars, Form.joined, List.append_assoc, List.length_append] at hfuel ⊢
    refine members_last key (hfirst (by omega) (by omega) hends) ?_
    rw [skip_newline, skip_cons rfl]
  | cons other others =>
    have hjoined : form.joined level (memberChars form level ((key, n) :: other :: others)) =
        quoted key ++ (form.colon ++ (chars form level n ++ ',' :: (form.newline level ++
          form.joined level (memberChars form level (other :: others))))) := by
      obtain ⟨other, m⟩ := other
      simp only [memberChars, joined_cons_cons, List.append_assoc]
    rw [hjoined] at hfuel ⊢
    simp only [List.length_append, List.length_cons] at hfuel
    simp only [List.append_assoc, List.cons_append]
    rw [members_more key (hfirst (by omega) (by omega) (ends_cons _ (by decide))) (skip_cons rfl _),
      members_newline, hothers (List.cons_ne_nil _ _) (by omega) (by omega)]
    rfl

end Cases

mutual

theorem rereads (form : Form) : (n : Node) → Writable n → Rereads form n
  | .null, _ => rereads_null
  | .scalar _, h => rereads_scalar h.not_float
  | .sequence given, h =>
    have hw : ∀ n ∈ given, Writable n := fun _ hn => h.part (.item hn .here)
    rereads_sequence (itemsReread form given hw) hw
  | .mapping given, h =>
    rereads_mapping (membersReread form given fun _ he => h.part (.entry he .here))
      (h.keyed given .here)
  | .record type given, h =>
    rereads_record type (membersReread form given fun _ he => h.part (.field he .here))
      (h.named type given .here)
  | .indirect n, h => rereads form n (h.part (.layer .here))

theorem itemsReread (form : Form) : (given : List Node) → (∀ n ∈ given, Writable n) →
    ItemsReread form given
  | [], _ => fun hne => absurd rfl hne
  | n :: others, h =>
    itemsReread_cons (rereads form n (h n List.mem_cons_self))
      (itemsReread form others fun m hm => h m (List.mem_cons_of_mem _ hm))

theorem membersReread (form : Form) : (given : List (String × Node)) →
    (∀ e ∈ given, Writable e.2) → MembersReread form given
  | [], _ => fun hne => absurd rfl hne
  | (_, n) :: others, h =>
    membersReread_cons (rereads form n (h _ List.mem_cons_self))
      (membersReread form others fun e he => h e (List.mem_cons_of_mem _ he))

end

/-! ## The whole text -/

/-- The text of a document holds its plain tree. -/
theorem readChars_chars {form : Form} {n : Node} (h : Writable n) (hn : n.nesting ≤ maxDepth) :
    readChars (chars form 0 n) = some n.plain := by
  have hread : value (2 * (chars form 0 n).length + 2) maxDepth (chars form 0 n ++ []) =
      some (n.plain, []) :=
    rereads form n h hn (by omega) (by intro c hc; cases hc)
  rw [List.append_nil] at hread
  unfold readChars
  rw [hread]
  rfl

/-- **JSON text is read as it was written.**  Let no float stand in a document, and let at most 127
sequences, mappings and records stand inside one another in it.  Then its text, on one line or
indented, is read, and what is read is the document without its indirect layers and with each record
turned into the mapping of its fields, in their order.  A document without records and layers comes
back as it is, with the order of its keys and all its integers.  The dictionaries of a document have
each key once. -/
theorem read_write (form : Form) (n : Node) (h : Writable n) (hn : n.nesting ≤ 127) :
    read? (write form n) = some n.plain ∧ (Plain n → read? (write form n) = some n) := by
  have hread : read? (write form n) = some n.plain := by
    rw [read?, write, String.toList_ofList]
    exact readChars_chars h hn
  refine ⟨hread, fun hplain => ?_⟩
  rw [hread, hplain.plain_eq]

/-- A record with an optional field that holds the least integer, beside a name with a quote and a
line break in it. -/
theorem read_write_pony :
    let pony : RecordType := ⟨"Pony", [("Name", .string), ("Born", .optional .integer)]⟩
    let n : Node := .sequence [.record pony [("Name", .string "\"Io\"\n"),
      ("Born", .indirect (.integer (-9223372036854775808)))], .mapping [("ß", .null)]]
    Writable n ∧ n.nesting ≤ 127 ∧ read? (write .pretty n) = some (.sequence [
      .mapping [("Name", .string "\"Io\"\n"), ("Born", .integer (-9223372036854775808))],
      .mapping [("ß", .null)]]) := by
  intro pony n
  have hborn : Writable (.indirect (.integer (-9223372036854775808))) :=
    (writable_scalar fun x h => by cases h).indirect
  have hpony : Writable (.record pony [("Name", .string "\"Io\"\n"),
      ("Born", .indirect (.integer (-9223372036854775808)))]) := by
    refine writable_record pony (by simp [Entries.Distinct, Entries.keys]) fun e he => ?_
    simp only [List.mem_cons, List.not_mem_nil, or_false] at he
    rcases he with rfl | rfl
    · exact writable_scalar fun x h => by cases h
    · exact hborn
  have hkeys : Writable (.mapping [("ß", .null)]) := by
    refine writable_mapping (by simp [Entries.Distinct, Entries.keys]) fun e he => ?_
    cases List.mem_singleton.mp he
    exact writable_null
  have hw : Writable n := by
    refine writable_sequence fun m hm => ?_
    simp only [List.mem_cons, List.not_mem_nil, or_false] at hm
    rcases hm with rfl | rfl
    · exact hpony
    · exact hkeys
  have hn : n.nesting ≤ 127 := by decide
  exact ⟨hw, hn, (read_write .pretty n hw hn).1⟩

end Json

end Polydoc
