/-
  Proofs/Toml/Fuel.lean --- the TOML reader never runs out of fuel.

  A value takes a character at least, and so does a line that is not the last one.  The amounts that
  are given for a value and for the lines of a text cover that, whatever the text.
-/
import Polydoc.Proofs.Toml.Leaving
import Polydoc.Toml.Reader

set_option autoImplicit false

namespace Polydoc

namespace Toml

/-! ## Between statements -/

/-- What stands behind blanks and comments is no longer than the text, for texts of up to `n`
characters. -/
structure Skips (n : Nat) : Prop where
  space : ∀ {cs rest}, cs.length ≤ n → skipSpace? cs = some rest → rest.length ≤ cs.length
  comment : ∀ {cs rest}, cs.length ≤ n → skipComment? cs = some rest → rest.length ≤ cs.length

section Skipping

variable {n : Nat} (skips : Skips n)

include skips

theorem skipSpace?_skips {cs rest : List Char} (hn : cs.length ≤ n + 1)
    (h : skipSpace? cs = some rest) : rest.length ≤ cs.length := by
  unfold skipSpace? at h
  split at h
  · cases h
    exact Nat.le_refl _
  · simp only [List.length_cons] at hn ⊢
    have := skips.space (by omega) h
    omega
  · simp only [List.length_cons] at hn ⊢
    split at h
    · have := skips.space (by omega) h
      omega
    · split at h
      · have := skips.comment (by omega) h
        omega
      · cases h
        exact Nat.le_refl _

theorem skipComment?_skips {cs rest : List Char} (hn : cs.length ≤ n + 1)
    (h : skipComment? cs = some rest) : rest.length ≤ cs.length := by
  unfold skipComment? at h
  split at h
  · cases h
  · simp only [List.length_cons] at hn ⊢
    have := skips.space (by omega) h
    omega
  · simp only [List.length_cons] at hn ⊢
    have := skips.space (by omega) h
    omega
  · simp only [List.length_cons] at hn ⊢
    split at h
    · have := skips.comment (by omega) h
      omega
    · cases h

end Skipping

theorem skips (n : Nat) : Skips n := by
  induction n with
  | zero =>
    constructor
    · intro cs rest hn h
      rw [List.length_eq_zero_iff.1 (Nat.le_zero.1 hn), skipSpace?] at h
      cases h
      exact Nat.zero_le _
    · intro cs rest hn h
      rw [List.length_eq_zero_iff.1 (Nat.le_zero.1 hn), skipComment?] at h
      cases h
  | succ n ih => exact ⟨skipSpace?_skips ih, skipComment?_skips ih⟩

theorem length_of_skipSpace? {cs rest : List Char} (h : skipSpace? cs = some rest) :
    rest.length ≤ cs.length :=
  (skips cs.length).space (Nat.le_refl _) h

theorem length_of_skipSpace?_cons {cs rest : List Char} {c : Char}
    (h : skipSpace? cs = some (c :: rest)) : rest.length < cs.length :=
  length_of_skipSpace? h

theorem length_pastComment_le (cs : List Char) : (pastComment cs).length ≤ cs.length := by
  unfold pastComment
  split
  · exact Nat.le_succ_of_le (List.dropWhile_sublist _).length_le
  · exact Nat.le_refl _

/-- The end of a line is the end of the text, or it takes a character. -/
theorem length_of_endLine? {cs rest : List Char} (h : endLine? cs = some rest) :
    rest = [] ∨ rest.length < cs.length := by
  unfold endLine? at h
  split at h
  · cases h
    exact .inl rfl
  · have hbreak := length_of_lineBreak? h
    have hcomment := length_pastComment_le (skipBlanks cs)
    have hblanks := length_skipBlanks_le cs
    exact .inr (by omega)

/-! ## What values leave -/

/-- What is read with some fuel takes at least one character. -/
structure Shortens (fuel : Nat) : Prop where
  value : ∀ depth cs, Leaves cs.length (value? fuel depth cs)
  items : ∀ depth cs, Leaves cs.length (items? fuel depth cs)
  pairs : ∀ depth cs, Leaves cs.length (pairs? fuel depth cs)

section Shortening

variable {fuel : Nat} (shortens : Shortens fuel)

include shortens

theorem value?_shortens (depth : Nat) (cs : List Char) :
    Leaves cs.length (value? (fuel + 1) depth cs) := by
  unfold value?
  split
  · contradiction
  · exact within_some (by simp only [List.length_cons]; omega)
  · exact within_some (by simp only [List.length_cons]; omega)
  · rename_i hfuel
    cases hfuel
    split
    · exact within_none
    · exact ((shortens.items _ _).map fun _ _ => rfl).mono (Nat.le_succ _)
  · rename_i rest hfuel
    cases hfuel
    have := length_skipBlanks_le rest
    split
    · exact within_none
    · refine Within.bind fun ⟨pairs, behind⟩ hpairs => within_made ?_
      have := shortens.pairs _ _ pairs behind hpairs
      simp only [List.length_cons]
      omega
  · split
    · rename_i text rest htext
      exact within_some (text?_leaves _ text rest htext)
    · split
      · rename_i t rest htime
        exact within_some (dateTime?_leaves _ t rest htime)
      · exact number_leaves _

theorem items?_shortens (depth : Nat) (cs : List Char) :
    Leaves cs.length (items? (fuel + 1) depth cs) := by
  unfold items?
  split
  · exact within_none
  · rename_i rest hclose
    exact within_some (length_of_skipSpace?_cons hclose)
  · rename_i start _ hspace
    have := length_of_skipSpace? hspace
    split
    · exact within_none
    · rename_i v rest hvalue
      have := shortens.value depth start v rest hvalue
      split
      · rename_i behind hclose
        have := length_of_skipSpace?_cons hclose
        exact within_some (by omega)
      · rename_i behind hcomma
        have := length_of_skipSpace?_cons hcomma
        exact ((shortens.items depth behind).map fun _ _ => rfl).mono (by omega)
      · exact within_none

theorem pairs?_shortens (depth : Nat) (cs : List Char) :
    Leaves cs.length (pairs? (fuel + 1) depth cs) := by
  unfold pairs?
  split
  · contradiction
  · exact within_some (Nat.lt_succ_self _)
  · rename_i hfuel _
    cases hfuel
    split
    · rename_i keys rest hkeys
      have := keys?_leaves _ _ keys ('=' :: rest) hkeys
      have := length_skipBlanks_le rest
      simp only [List.length_cons] at *
      split
      · exact within_none
      · rename_i v rest hvalue
        have := shortens.value _ _ v rest hvalue
        split
        · rename_i behind hclose
          have := length_of_skipBlanks hclose
          exact within_some (by omega)
        · rename_i behind hcomma
          have := length_of_skipBlanks hcomma
          have := length_skipBlanks_le behind
          split
          · exact within_none
          · exact ((shortens.pairs _ _).map fun _ _ => rfl).mono (by omega)
        · exact within_none
    · exact within_none

end Shortening

theorem shortens (fuel : Nat) : Shortens fuel := by
  induction fuel with
  | zero =>
    exact ⟨fun _ _ => within_none, fun _ _ => within_none, fun _ _ => within_none⟩
  | succ fuel ih => exact ⟨value?_shortens ih, items?_shortens ih, pairs?_shortens ih⟩

/-! ## Fuel -/

/-- One unit more changes nothing, for the texts that an amount of fuel covers. -/
structure Steady (fuel : Nat) : Prop where
  value : ∀ {depth cs}, 2 * cs.length + 1 ≤ fuel →
    value? (fuel + 1) depth cs = value? fuel depth cs
  items : ∀ {depth cs}, 2 * cs.length + 2 ≤ fuel →
    items? (fuel + 1) depth cs = items? fuel depth cs
  pairs : ∀ {depth cs}, 2 * cs.length + 2 ≤ fuel →
    pairs? (fuel + 1) depth cs = pairs? fuel depth cs

section Steadiness

variable {fuel : Nat} (steady : Steady fuel)

include steady

theorem value?_steady {depth : Nat} {cs : List Char} (h : 2 * cs.length + 1 ≤ fuel + 1) :
    value? (fuel + 2) depth cs = value? (fuel + 1) depth cs := by
  unfold value?
  split
  · contradiction
  · rfl
  · rfl
  · rename_i hfuel
    cases hfuel
    simp only [List.length_cons] at h
    rw [steady.items (by omega)]
  · rename_i rest hfuel
    cases hfuel
    simp only [List.length_cons] at h
    have := length_skipBlanks_le rest
    rw [steady.pairs (by omega)]
  · rfl

theorem items?_steady {depth : Nat} {cs : List Char} (h : 2 * cs.length + 2 ≤ fuel + 1) :
    items? (fuel + 2) depth cs = items? (fuel + 1) depth cs := by
  unfold items?
  split
  · rfl
  · rfl
  · rename_i start _ hspace
    have hstart := length_of_skipSpace? hspace
    rw [steady.value (by omega)]
    split
    · rfl
    · rename_i v rest hvalue
      have hrest := (shortens fuel).value depth start v rest hvalue
      split
      · rfl
      · rename_i behind hcomma
        have := length_of_skipSpace?_cons hcomma
        rw [steady.items (by omega)]
      · rfl

theorem pairs?_steady {depth : Nat} {cs : List Char} (h : 2 * cs.length + 2 ≤ fuel + 1) :
    pairs? (fuel + 2) depth cs = pairs? (fuel + 1) depth cs := by
  unfold pairs?
  split
  · contradiction
  · rfl
  · rename_i hfuel _
    cases hfuel
    split
    · rename_i keys rest hkeys
      have hrest := keys?_leaves _ _ keys ('=' :: rest) hkeys
      have hvalue := length_skipBlanks_le rest
      simp only [List.length_cons] at hrest
      rw [steady.value (by omega)]
      split
      · rfl
      · rename_i v rest hv
        have := (shortens fuel).value _ _ v rest hv
        split
        · rfl
        · rename_i behind hcomma
          have := length_of_skipBlanks hcomma
          have := length_skipBlanks_le behind
          split
          · rfl
          · rw [steady.pairs (by omega)]
        · rfl
    · rfl

end Steadiness

theorem steady (fuel : Nat) : Steady fuel := by
  induction fuel with
  | zero => exact ⟨fun h => absurd h (by omega), fun h => absurd h (by omega),
      fun h => absurd h (by omega)⟩
  | succ fuel ih => exact ⟨value?_steady ih, items?_steady ih, pairs?_steady ih⟩

theorem value?_suffices (depth : Nat) (cs : List Char) :
    Suffices (2 * cs.length + 1) fun fuel => value? fuel depth cs :=
  suffices_of_succ fun _ hfuel => (steady _).value hfuel

/-- The value of a pair is read as it would be with any greater amount than its statement gives. -/
theorem value?_of_fuel {rest : List Char} {fuel : Nat} (h : 2 * rest.length + 2 ≤ fuel) :
    value? (2 * rest.length + 2) maxDepth (skipBlanks rest) =
      value? fuel maxDepth (skipBlanks rest) := by
  have hblanks := length_skipBlanks_le rest
  exact (value?_suffices maxDepth (skipBlanks rest)).eq (by omega) (by omega)

/-! ## Lines -/

theorem header?_leaves (ofArray : Bool) (cs : List Char) :
    Leaves cs.length (header? ofArray cs) := by
  unfold header?
  split
  · rename_i keys rest hkeys
    have := keys?_leaves _ cs keys _ hkeys
    simp only [List.length_cons] at this
    exact within_some (by omega)
  · rename_i keys rest hkeys
    have := keys?_leaves _ cs keys _ hkeys
    simp only [List.length_cons] at this
    exact within_some (by omega)
  · exact within_none

theorem statement?_leaves (cs : List Char) : Leaves cs.length (statement? cs) := by
  unfold statement?
  split
  · exact (header?_leaves true _).mono (by simp only [List.length_cons]; omega)
  · exact (header?_leaves false _).mono (Nat.le_succ _)
  · split
    · rename_i keys rest hkeys
      have := keys?_leaves _ cs keys _ hkeys
      have := length_skipBlanks_le rest
      simp only [List.length_cons] at *
      exact (((shortens _).value _ _).map fun _ _ => rfl).mono (by omega)
    · exact within_none

theorem statements?_steady {fuel : Nat} {cs : List Char} (h : cs.length + 1 ≤ fuel) :
    statements? (fuel + 1) cs = statements? fuel cs := by
  induction fuel generalizing cs with
  | zero => exact absurd h (by omega)
  | succ fuel ih =>
    unfold statements?
    split
    · rfl
    · rename_i rest hsome hend
      rcases length_of_endLine? hend with hempty | hrest
      · exact absurd hempty hsome
      · exact ih (by omega)
    · split
      · rfl
      · rename_i s rest hstatement
        have hs := statement?_leaves _ s rest hstatement
        have hblanks := length_skipBlanks_le cs
        split
        · rfl
        · rfl
        · rename_i behind hsome hend
          rcases length_of_endLine? hend with hempty | hbehind
          · exact absurd hempty hsome
          · rw [ih (by omega)]

/-- The lines of a text are read with the fuel that its length calls for. -/
theorem statements?_suffices (cs : List Char) :
    Suffices (cs.length + 1) fun fuel => statements? fuel cs :=
  suffices_of_succ fun _ hfuel => statements?_steady hfuel

/-- **A text is read as it would be with any greater amount of fuel.** -/
theorem read?_eq_of_fuel {text : String} {fuel : Nat}
    (h : (withoutMark text.toList).length + 1 ≤ fuel) :
    read? text = (statements? fuel (withoutMark text.toList)).bind ofStatements? := by
  have hstatements : statements? fuel (withoutMark text.toList) =
      statements? ((withoutMark text.toList).length + 1) (withoutMark text.toList) :=
    statements?_suffices _ fuel h
  rw [hstatements]
  rfl

end Toml

end Polydoc
