/-
  Proofs/Json/Fuel.lean --- the JSON reader never runs out of fuel.

  Every value takes a character at least, so twice the length of the text covers a value in each
  item of each array in it.  More fuel than that gives the same answer, for any text.
-/
import Polydoc.Json.Reader
import Polydoc.Proofs.Fuel

set_option autoImplicit false

namespace Polydoc

namespace Json

/-! ## What texts and numbers leave -/

theorem length_skip_le (cs : List Char) : (skip cs).length ≤ cs.length :=
  (List.dropWhile_sublist _).length_le

/-- The first token and what is behind it. -/
theorem length_of_skip {cs rest : List Char} {c : Char} (h : skip cs = c :: rest) :
    rest.length < cs.length := by
  have hskip := length_skip_le cs
  rw [h] at hskip
  exact hskip

/-- The first token is a word, and what is behind it. -/
theorem length_of_skip_word {cs rest : List Char} {c : Char} (word : List Char)
    (h : skip cs = c :: word ++ rest) : rest.length < cs.length := by
  have hskip : (word ++ rest).length < cs.length := length_of_skip h
  rw [List.length_append] at hskip
  omega

theorem prepend_leaves {n : Nat} {r : Option (List Char × List Char)} (h : Leaves n r) (c : Char) :
    Leaves n (prepend c r) :=
  h.map fun _ _ => rfl

theorem text_leaves (cs : List Char) : Leaves cs.length (text cs) := by
  fun_induction text cs with
  | case2 rest => exact within_some (Nat.lt_succ_self _)
  | case6 | case9 | case10 | case13 =>
    rename_i ih
    exact (prepend_leaves ih _).mono (by simp only [List.length_cons]; omega)
  | _ => exact within_none

theorem digits_leaves (cs : List Char) : Leaves cs.length (digits cs) := by
  unfold digits
  split
  · exact within_none
  · rename_i ds hds
    exact within_some (length_dropWhile_lt hds)

theorem wholePart_leaves (cs : List Char) : Leaves cs.length (wholePart cs) := by
  unfold wholePart
  split
  · exact within_some (Nat.lt_succ_self _)
  · exact digits_leaves cs

theorem fractionPart_leaves (cs : List Char) : Leaves (cs.length + 1) (fractionPart cs) := by
  unfold fractionPart
  split
  · rename_i rest
    exact ((digits_leaves rest).map fun _ _ => rfl).mono (by simp only [List.length_cons]; omega)
  · exact within_some (Nat.lt_succ_self _)

theorem exponentPart_leaves (cs : List Char) : Leaves (cs.length + 1) (exponentPart cs) := by
  unfold exponentPart
  split
  · split
    · -- the digits stand behind the mark alone, or behind a sign as well
      split <;>
        exact ((digits_leaves _).map fun _ _ => rfl).mono (by simp only [List.length_cons]; omega)
    · exact within_some (Nat.lt_succ_self _)
  · exact within_some (Nat.lt_succ_self _)

theorem unsignedNumber_leaves (negative : Bool) (cs : List Char) :
    Leaves cs.length (unsignedNumber negative cs) := by
  refine Within.bind fun ⟨whole, behind⟩ hwhole => ?_
  refine Within.bind fun ⟨fraction, behind'⟩ hfraction => ?_
  refine Within.bind fun ⟨exponent, rest⟩ hexponent => ?_
  refine Within.bind fun value _ => within_some ?_
  have := wholePart_leaves cs whole behind hwhole
  have := fractionPart_leaves behind fraction behind' hfraction
  have := exponentPart_leaves behind' exponent rest hexponent
  omega

theorem number_leaves (cs : List Char) : Leaves cs.length (number cs) := by
  unfold number
  split
  · exact (unsignedNumber_leaves true _).mono (Nat.le_succ _)
  · exact unsignedNumber_leaves false cs

/-! ## What values leave -/

/-- What is read with some fuel takes at least one character. -/
structure Shortens (fuel : Nat) : Prop where
  value : ∀ depth cs, Leaves cs.length (value fuel depth cs)
  items : ∀ depth cs, Leaves cs.length (items fuel depth cs)
  members : ∀ depth cs, Leaves cs.length (members fuel depth cs)

section Shortening

variable {fuel : Nat} (shortens : Shortens fuel)

include shortens

theorem value_shortens (depth : Nat) (cs : List Char) :
    Leaves cs.length (value (fuel + 1) depth cs) := by
  unfold value
  split
  · exact within_none
  · rename_i heq
    exact within_some (length_of_skip_word ['u', 'l', 'l'] heq)
  · rename_i heq
    exact within_some (length_of_skip_word ['r', 'u', 'e'] heq)
  · rename_i heq
    exact within_some (length_of_skip_word ['a', 'l', 's', 'e'] heq)
  · rename_i rest heq
    have := length_of_skip heq
    exact ((text_leaves rest).map fun _ _ => rfl).mono (by omega)
  · rename_i rest heq
    have hrest := length_of_skip heq
    split
    · exact within_none
    · split
      · rename_i behind hclose
        have := length_of_skip hclose
        exact within_some (by omega)
      · have := length_skip_le rest
        exact ((shortens.items _ (skip rest)).map fun _ _ => rfl).mono (by omega)
  · rename_i rest heq
    have hrest := length_of_skip heq
    split
    · exact within_none
    · split
      · rename_i behind hclose
        have := length_of_skip hclose
        exact within_some (by omega)
      · have := length_skip_le rest
        exact ((shortens.members _ (skip rest)).map fun _ _ => rfl).mono (by omega)
  · exact ((number_leaves _).map fun _ _ => rfl).mono (length_skip_le cs)

theorem items_shortens (depth : Nat) (cs : List Char) :
    Leaves cs.length (items (fuel + 1) depth cs) := by
  unfold items
  split
  · exact within_none
  · rename_i n rest hvalue
    have hrest := shortens.value depth cs n rest hvalue
    split
    · rename_i behind hclose
      have := length_of_skip hclose
      exact within_some (by omega)
    · rename_i behind hcomma
      have := length_of_skip hcomma
      exact ((shortens.items depth behind).map fun _ _ => rfl).mono (by omega)
    · exact within_none

theorem members_shortens (depth : Nat) (cs : List Char) :
    Leaves cs.length (members (fuel + 1) depth cs) := by
  unfold members
  split
  · rename_i quoted hquote
    have := length_of_skip hquote
    split
    · exact within_none
    · rename_i key rest hkey
      have := text_leaves quoted key rest hkey
      split
      · rename_i behind hcolon
        have := length_of_skip hcolon
        split
        · exact within_none
        · rename_i n rest hvalue
          have := shortens.value depth behind n rest hvalue
          dsimp only
          split
          · rename_i behind hclose
            have := length_of_skip hclose
            exact within_some (by omega)
          · rename_i behind hcomma
            have := length_of_skip hcomma
            exact ((shortens.members depth behind).map fun _ _ => rfl).mono (by omega)
          · exact within_none
      · exact within_none
  · exact within_none

end Shortening

theorem shortens (fuel : Nat) : Shortens fuel := by
  induction fuel with
  | zero =>
    exact ⟨fun _ _ => within_none, fun _ _ => within_none, fun _ _ => within_none⟩
  | succ fuel ih => exact ⟨value_shortens ih, items_shortens ih, members_shortens ih⟩

/-! ## Fuel -/

/-- One unit more changes nothing, for the texts that an amount of fuel covers. -/
structure Steady (fuel : Nat) : Prop where
  value : ∀ {depth cs}, 2 * cs.length + 1 ≤ fuel →
    value (fuel + 1) depth cs = value fuel depth cs
  items : ∀ {depth cs}, 2 * cs.length + 2 ≤ fuel →
    items (fuel + 1) depth cs = items fuel depth cs
  members : ∀ {depth cs}, 2 * cs.length + 2 ≤ fuel →
    members (fuel + 1) depth cs = members fuel depth cs

section Steadiness

variable {fuel : Nat} (steady : Steady fuel)

include steady

theorem value_steady {depth : Nat} {cs : List Char} (h : 2 * cs.length + 1 ≤ fuel + 1) :
    value (fuel + 2) depth cs = value (fuel + 1) depth cs := by
  unfold value
  split
  · rfl
  · rfl
  · rfl
  · rfl
  · rfl
  · rename_i rest heq
    have hrest := length_of_skip heq
    have hbehind := length_skip_le rest
    cases depth with
    | zero => rfl
    | succ depth =>
      dsimp only
      split
      · rfl
      · rw [steady.items (by omega)]
  · rename_i rest heq
    have hrest := length_of_skip heq
    have hbehind := length_skip_le rest
    cases depth with
    | zero => rfl
    | succ depth =>
      dsimp only
      split
      · rfl
      · rw [steady.members (by omega)]
  · rfl

theorem items_steady {depth : Nat} {cs : List Char} (h : 2 * cs.length + 2 ≤ fuel + 1) :
    items (fuel + 2) depth cs = items (fuel + 1) depth cs := by
  unfold items
  rw [steady.value (by omega)]
  split
  · rfl
  · rename_i n rest hvalue
    have hrest := (shortens fuel).value depth cs n rest hvalue
    split
    · rfl
    · rename_i behind hcomma
      have := length_of_skip hcomma
      rw [steady.items (by omega)]
    · rfl

theorem members_steady {depth : Nat} {cs : List Char} (h : 2 * cs.length + 2 ≤ fuel + 1) :
    members (fuel + 2) depth cs = members (fuel + 1) depth cs := by
  unfold members
  split
  · rename_i quoted hquote
    have hquoted := length_of_skip hquote
    split
    · rfl
    · rename_i key rest hkey
      have hrest := text_leaves quoted key rest hkey
      split
      · rename_i behind hcolon
        have hbehind := length_of_skip hcolon
        rw [steady.value (by omega)]
        split
        · rfl
        · rename_i n rest hvalue
          have hrest := (shortens fuel).value depth behind n rest hvalue
          dsimp only
          split
          · rfl
          · rename_i behind hcomma
            have := length_of_skip hcomma
            rw [steady.members (by omega)]
          · rfl
      · rfl
  · rfl

end Steadiness

theorem steady (fuel : Nat) : Steady fuel := by
  induction fuel with
  | zero => exact ⟨fun h => absurd h (by omega), fun h => absurd h (by omega),
      fun h => absurd h (by omega)⟩
  | succ fuel ih => exact ⟨value_steady ih, items_steady ih, members_steady ih⟩

/-- The fuel of `readChars` suffices, and one unit less does too. -/
theorem value_suffices (depth : Nat) (cs : List Char) :
    Suffices (2 * cs.length + 1) fun fuel => value fuel depth cs :=
  suffices_of_succ fun _ hfuel => (steady _).value hfuel

/-- **A text is read as it would be with any greater amount of fuel.** -/
theorem readChars_eq_some_iff {cs : List Char} {n : Node} {fuel : Nat}
    (h : 2 * cs.length + 1 ≤ fuel) :
    readChars cs = some n ↔
      ∃ rest, value fuel maxDepth cs = some (n, rest) ∧ skip rest = [] := by
  have hvalue : value fuel maxDepth cs = value (2 * cs.length + 2) maxDepth cs :=
    (value_suffices maxDepth cs).eq h (Nat.le_succ _)
  rw [hvalue, readChars]
  split
  · rename_i found rest hfound
    rw [hfound]
    constructor
    · intro hread
      split at hread
      · rename_i hempty
        cases hread
        exact ⟨rest, rfl, List.isEmpty_iff.1 hempty⟩
      · cases hread
    · rintro ⟨left, heq, hempty⟩
      cases heq
      rw [hempty]
      rfl
  · rename_i hnone
    rw [hnone]
    constructor
    · intro hread
      cases hread
    · rintro ⟨_, heq, _⟩
      cases heq

end Json

end Polydoc
