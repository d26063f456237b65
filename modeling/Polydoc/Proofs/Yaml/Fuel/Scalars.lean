/-
  Proofs/Yaml/Fuel/Scalars.lean --- the readers of YAML scalars never run out of fuel.

  Each round of one of them takes a character at least: a blank or a break between two words, a
  word, an escape, a line.  So one unit more than there are characters is enough.
-/
import Polydoc.Proofs.Fuel
import Polydoc.Yaml.ScalarText

set_option autoImplicit false

namespace Polydoc

namespace Yaml

/-! ## Places -/

namespace Cursor

/-- How many characters are left. -/
abbrev left (c : Cursor) : Nat := c.rest.length

theorem left_of_rest {c : Cursor} {ch : Char} {cs : List Char} (h : c.rest = ch :: cs) :
    c.left = cs.length + 1 := by
  rw [left, h, List.length_cons]

theorem left_pos {c : Cursor} {ch : Char} {cs : List Char} (h : c.rest = ch :: cs) :
    0 < c.left := by
  rw [left_of_rest h]
  exact Nat.succ_pos _

theorem left_skip (c : Cursor) (n : Nat) : (c.skip n).left = c.left - n := by
  simp [left, skip]

theorem left_skipWhile_le (c : Cursor) (p : Char → Bool) : (c.skipWhile p).left ≤ c.left := by
  unfold skipWhile
  rw [left_skip]
  exact Nat.sub_le _ _

theorem left_skipComment_le (c : Cursor) : c.skipComment.left ≤ c.left := by
  unfold skipComment
  split
  · exact left_skipWhile_le c _
  · exact Nat.le_refl _

/-- A break takes one or two characters, and where there is none nothing is taken. -/
theorem left_skipBreak (c : Cursor) :
    c.skipBreak.2.left < c.left ∨ c.skipBreak.2 = c ∧ c.rest.head?.any isBreak = false := by
  have hdrop (n : Nat) : (c.rest.drop n).length = c.left - n := List.length_drop
  unfold skipBreak
  dsimp only
  split
  · rename_i hrest
    have hleft := left_of_rest hrest
    exact .inl (Nat.lt_of_le_of_lt (Nat.le_of_eq (hdrop 2)) (by omega))
  · rename_i ch cs _ hrest
    have hleft := left_of_rest hrest
    have hnext : (c.rest.drop 1).length < c.left := by rw [hdrop]; omega
    split
    · exact .inl hnext
    · split
      · exact .inl hnext
      · rename_i hbreak
        refine .inr ⟨rfl, ?_⟩
        simpa [hrest] using hbreak
  · rename_i hrest
    exact .inr ⟨rfl, by rw [hrest]; rfl⟩

theorem left_skipBreak_lt {c : Cursor} (h : c.rest.head?.any isBreak = true) :
    c.skipBreak.2.left < c.left := by
  rcases left_skipBreak c with hlt | ⟨_, hnone⟩
  · exact hlt
  · rw [h] at hnone
    cases hnone

theorem left_skipBreak_le (c : Cursor) : c.skipBreak.2.left ≤ c.left := by
  rcases left_skipBreak c with hlt | ⟨heq, _⟩
  · exact Nat.le_of_lt hlt
  · exact Nat.le_of_eq (by rw [heq])

theorem left_of_pastLine? {c c' : Cursor} (h : c.pastLine? = some c') : c'.left ≤ c.left := by
  have hblank := left_skipWhile_le c isBlank
  have hcomment := left_skipComment_le (c.skipWhile isBlank)
  have hbreak := left_skipBreak_le (c.skipWhile isBlank).skipComment
  unfold pastLine? at h
  dsimp only at h
  split at h
  · cases h
    omega
  · cases h

end Cursor

/-- A reader stops at a place with less than `n` characters behind it. -/
abbrev Stops {α : Type} (n : Nat) (r : Option (α × Cursor)) : Prop := Within Cursor.left n r

/-! ## Gaps -/

section Gaps

variable {indent fuel : Nat} {c : Cursor} {g : Gap} {ch : Char} {cs : List Char}

/-- A round takes the blank or the break that is there. -/
theorem gap_shortens (ih : ∀ c g, Stops (c.left + 1) (gap indent fuel c g))
    (hrest : c.rest = ch :: cs) (h : (isBlank ch || isBreak ch) = true) :
    Stops c.left (gap indent (fuel + 1) c g) := by
  have hleft := Cursor.left_of_rest hrest
  have hskip := Cursor.left_skip c 1
  unfold gap
  rw [hrest]
  dsimp only
  split
  · split
    · split
      · exact within_none
      · exact (ih _ _).mono (by omega)
    · exact (ih _ _).mono (by omega)
  · rename_i hblank
    have hbreak : isBreak ch = true := by simpa [hblank] using h
    have hlt := Cursor.left_skipBreak_lt (c := c) (by rw [hrest]; exact hbreak)
    rw [if_pos hbreak]
    split
    · exact (ih _ _).mono hlt
    · exact (ih _ _).mono hlt

theorem gap_stops (indent fuel : Nat) (c : Cursor) (g : Gap) :
    Stops (c.left + 1) (gap indent fuel c g) := by
  induction fuel generalizing c g with
  | zero => exact within_none
  | succ fuel ih =>
    cases hrest : c.rest with
    | nil =>
      unfold gap
      rw [hrest]
      exact within_some (Nat.lt_succ_self _)
    | cons ch cs =>
      by_cases h : (isBlank ch || isBreak ch) = true
      · exact (gap_shortens ih hrest h).mono (Nat.le_succ _)
      · rw [Bool.or_eq_true, not_or] at h
        unfold gap
        rw [hrest]
        dsimp only
        rw [if_neg h.1, if_neg h.2]
        exact within_some (Nat.lt_succ_self _)

theorem gap_stops_lt (hrest : c.rest = ch :: cs) (h : (isBlank ch || isBreak ch) = true) :
    Stops c.left (gap indent fuel c g) := by
  cases fuel with
  | zero => exact within_none
  | succ fuel => exact gap_shortens (gap_stops indent fuel) hrest h

theorem gap_steady (h : c.left + 1 ≤ fuel) : gap indent (fuel + 1) c g = gap indent fuel c g := by
  induction fuel generalizing c g with
  | zero => exact absurd h (by omega)
  | succ fuel ih =>
    unfold gap
    split
    · rfl
    · rename_i ch cs hrest
      have hleft := Cursor.left_of_rest hrest
      have hskip := Cursor.left_skip c 1
      split
      · rw [ih (by omega), ih (by omega)]
      · split
        · rename_i hbreak
          have hlt := Cursor.left_skipBreak_lt (c := c) (by rw [hrest]; exact hbreak)
          dsimp only
          rw [ih (by omega), ih (by omega)]
        · rfl

theorem gap_suffices (indent : Nat) (c : Cursor) (g : Gap) :
    Suffices (c.rest.length + 1) fun fuel => gap indent fuel c g :=
  suffices_of_succ fun _ hfuel => gap_steady hfuel

end Gaps

/-! ## Plain scalars -/

/-- What a word is put in front of stays. -/
theorem length_of_word {flow : Bool} {acc w cs : List Char} (h : word flow acc cs = some w) :
    acc.length ≤ w.length := by
  fun_induction word flow acc cs with
  | case1 | case2 | case5 =>
    cases h
    exact Nat.le_refl _
  | case3 => cases h
  | case4 | case6 =>
    rename_i ih
    exact Nat.le_of_succ_le (ih h)

/-- How many characters are left behind a plain scalar. -/
abbrev leftBehind (p : Bool × Cursor) : Nat := p.2.left

section Words

variable {flow : Bool} {indent fuel : Nat} {c : Cursor} {acc w : List Char} {g : Gap}

/-- A round takes its word. -/
theorem plainWords_shortens
    (ih : ∀ c acc g, Within leftBehind (c.left + 1) (plainWords flow indent fuel c acc g))
    (hmark : ¬ (c.atDocumentMark || c.rest.head? = some '#') = true)
    (hw : word flow [] c.rest = some w) :
    Within leftBehind ((c.skip w.length).left + 1)
      (plainWords flow indent (fuel + 1) c acc g) := by
  unfold plainWords
  rw [if_neg hmark, hw]
  dsimp only
  generalize (if w.isEmpty then (acc, g) else (w ++ g.text.reverse ++ acc, Gap.none)) = found
  split
  · exact within_some (Nat.lt_succ_self _)
  · rename_i ch cs hrest
    split
    · rename_i hends
      split
      · exact within_none
      · rename_i g' c' hgap
        have := gap_stops_lt hrest hends g' c' hgap
        split
        · exact within_some (Nat.lt_succ_of_lt this)
        · exact (ih c' _ _).mono (by omega)
    · exact within_some (Nat.lt_succ_self _)

theorem plainWords_stops (flow : Bool) (indent fuel : Nat) (c : Cursor) (acc : List Char)
    (g : Gap) : Within leftBehind (c.left + 1) (plainWords flow indent fuel c acc g) := by
  induction fuel generalizing c acc g with
  | zero => exact within_none
  | succ fuel ih =>
    by_cases hmark : (c.atDocumentMark || c.rest.head? = some '#') = true
    · unfold plainWords
      rw [if_pos hmark]
      exact within_some (Nat.lt_succ_self _)
    · cases hw : word flow [] c.rest with
      | none =>
        unfold plainWords
        rw [if_neg hmark, hw]
        exact within_none
      | some w =>
        have := Cursor.left_skip c w.length
        exact (plainWords_shortens ih hmark hw).mono (by omega)

/-- A plain scalar takes a character, if the first word in it has one. -/
theorem plainScalar_stops (hmark : ¬ (c.atDocumentMark || c.rest.head? = some '#') = true)
    (hpos : 0 < c.left) (hword : ∀ w, word flow [] c.rest = some w → 0 < w.length) :
    Within leftBehind c.left (plainScalar flow indent c) := by
  refine Within.map ?_ fun _ _ => rfl
  cases hw : word flow [] c.rest with
  | none =>
    unfold plainWords
    rw [if_neg hmark, hw]
    exact within_none
  | some w =>
    have := hword w hw
    have := Cursor.left_skip c w.length
    exact (plainWords_shortens (plainWords_stops flow indent _) hmark hw).mono (by omega)

theorem plainWords_steady (h : c.left + 1 ≤ fuel) :
    plainWords flow indent (fuel + 1) c acc g = plainWords flow indent fuel c acc g := by
  induction fuel generalizing c acc g with
  | zero => exact absurd h (by omega)
  | succ fuel ih =>
    unfold plainWords
    split
    · rfl
    · split
      · rfl
      · rename_i w hw
        have hskip := Cursor.left_skip c w.length
        generalize (if w.isEmpty then (acc, g) else (w ++ g.text.reverse ++ acc, Gap.none)) = found
        dsimp only
        split
        · rfl
        · rename_i ch cs hrest
          split
          · rename_i hends
            split
            · rfl
            · rename_i g' c' hgap
              have := gap_stops_lt hrest hends g' c' hgap
              rw [ih (by omega)]
          · rfl

theorem plainWords_suffices (flow : Bool) (indent : Nat) (c : Cursor) (acc : List Char) (g : Gap) :
    Suffices (c.rest.length + 1) fun fuel => plainWords flow indent fuel c acc g :=
  suffices_of_succ fun _ hfuel => plainWords_steady hfuel

end Words

/-! ## Quoted scalars -/

section Quoted

variable {single : Bool} {fuel : Nat} {c : Cursor} {acc : List Char}

/-- A round takes a gap, an escape or a character. -/
theorem quotedText_stops (single : Bool) (fuel : Nat) (c : Cursor) (acc : List Char) :
    Stops (c.left + 1) (quotedText single fuel c acc) := by
  induction fuel generalizing c acc with
  | zero => exact within_none
  | succ fuel ih =>
    unfold quotedText
    split
    · exact within_none
    · rename_i ch cs hrest
      have hleft := Cursor.left_of_rest hrest
      have hskip := Cursor.left_skip c 1
      split
      · exact within_none
      · split
        · rename_i hends
          split
          · exact within_none
          · rename_i g c' hgap
            have := gap_stops_lt hrest hends g c' hgap
            exact (ih c' _).mono (by omega)
        · split
          · split
            · split
              · have := Cursor.left_skip c 2
                exact (ih _ _).mono (by omega)
              · exact within_some (by omega)
            · exact (ih _ _).mono (by omega)
          · split
            · exact within_some (by omega)
            · split
              · have := Cursor.left_skipBreak_le (c.skip 1)
                split
                · dsimp only
                  split
                  · exact (ih _ _).mono (by omega)
                  · split
                    · exact within_none
                    · rename_i g c' hgap
                      have := gap_stops _ _ _ _ g c' hgap
                      exact (ih c' _).mono (by omega)
                · split
                  · exact within_none
                  · rename_i e n _
                    have := Cursor.left_skip c (n + 1)
                    exact (ih _ _).mono (by omega)
              · exact (ih _ _).mono (by omega)

theorem quotedText_steady (h : c.left + 1 ≤ fuel) :
    quotedText single (fuel + 1) c acc = quotedText single fuel c acc := by
  induction fuel generalizing c acc with
  | zero => exact absurd h (by omega)
  | succ fuel ih =>
    unfold quotedText
    split
    · rfl
    · rename_i ch cs hrest
      have hleft := Cursor.left_of_rest hrest
      have hskip := Cursor.left_skip c 1
      split
      · rfl
      · split
        · rename_i hends
          split
          · rfl
          · rename_i g c' hgap
            have := gap_stops_lt hrest hends g c' hgap
            exact ih (by omega)
        · split
          · have := Cursor.left_skip c 2
            rw [ih (by omega), ih (by omega)]
          · split
            · rfl
            · split
              · have := Cursor.left_skipBreak_le (c.skip 1)
                split
                · dsimp only
                  split
                  · exact ih (by omega)
                  · split
                    · rfl
                    · rename_i g c' hgap
                      have := gap_stops _ _ _ _ g c' hgap
                      exact ih (by omega)
                · split
                  · rfl
                  · rename_i e n _
                    have := Cursor.left_skip c (n + 1)
                    exact ih (by omega)
              · exact ih (by omega)

theorem quotedText_suffices (single : Bool) (c : Cursor) (acc : List Char) :
    Suffices (c.rest.length + 1) fun fuel => quotedText single fuel c acc :=
  suffices_of_succ fun _ hfuel => quotedText_steady hfuel

end Quoted

theorem quotedScalar_stops (single : Bool) (c : Cursor) :
    Stops ((c.skip 1).left + 1) (quotedScalar single c) :=
  (quotedText_stops single _ (c.skip 1) []).map fun _ _ => rfl

/-! ## Literal and folded scalars -/

/-- How many characters are left behind the empty lines of a block scalar. -/
abbrev leftBelow (p : Nat × Cursor) : Nat := p.2.left

/-- How many characters are left behind the lines of a block scalar. -/
abbrev leftAfter (p : List Char × List Char × Cursor) : Nat := p.2.2.left

theorem left_of_chompMark? {c c' : Cursor} {how : Chomp} (h : chompMark? c = some (how, c')) :
    c'.left ≤ c.left := by
  have hskip := Cursor.left_skip c 1
  unfold chompMark? at h
  split at h
  · cases h
    omega
  · cases h
    omega
  · cases h

theorem left_of_indentMark? {c c' : Cursor} {n : Nat} (h : indentMark? c = some (some (n, c'))) :
    c'.left ≤ c.left := by
  have hskip := Cursor.left_skip c 1
  unfold indentMark? at h
  split at h
  · split at h
    · cases h
    · split at h
      · cases h
        omega
      · cases h
  · cases h

/-- The marks stand in either order. -/
theorem left_of_blockHeader {c c' : Cursor} {how : Chomp} {n : Nat}
    (h : blockHeader c = some (how, n, c')) : c'.left ≤ c.left := by
  unfold blockHeader at h
  split at h
  · rename_i hchomp
    have := left_of_chompMark? hchomp
    split at h
    · cases h
    · rename_i hindent
      have := left_of_indentMark? hindent
      cases h
      omega
    · cases h
      omega
  · split at h
    · cases h
    · cases h
      exact Nat.le_refl _
    · rename_i hindent
      have := left_of_indentMark? hindent
      split at h
      · rename_i hchomp
        have := left_of_chompMark? hchomp
        cases h
        omega
      · cases h
        omega

section Lines

variable {literal : Bool} {indent fuel : Nat} {c : Cursor} {acc last breaks : List Char}
  {deepest : Nat} {blank : Bool}

theorem blockBreaks_stops (indent fuel : Nat) (c : Cursor) (breaks : List Char) (deepest : Nat) :
    Within leftBelow (c.left + 1) (blockBreaks indent fuel c breaks deepest) := by
  induction fuel generalizing c breaks deepest with
  | zero => exact within_none
  | succ fuel ih =>
    unfold blockBreaks
    dsimp only
    generalize (if indent = 0 then (c.rest.takeWhile (· == ' ')).length else
      min (c.rest.takeWhile (· == ' ')).length (indent - c.column)) = width
    have hskip := Cursor.left_skip c width
    have hhere : (c.skip width).left < c.left + 1 := by omega
    split
    · split
      · exact within_none
      · exact within_some hhere
    · rename_i ch cs _ hrest
      split
      · have := Cursor.left_skipBreak_le (c.skip width)
        exact (ih _ _ _).mono (by omega)
      · exact within_some hhere
    · exact within_some hhere

theorem blockBreaks_steady (h : c.left + 1 ≤ fuel) :
    blockBreaks indent (fuel + 1) c breaks deepest = blockBreaks indent fuel c breaks deepest := by
  induction fuel generalizing c breaks deepest with
  | zero => exact absurd h (by omega)
  | succ fuel ih =>
    unfold blockBreaks
    dsimp only
    generalize (if indent = 0 then (c.rest.takeWhile (· == ' ')).length else
      min (c.rest.takeWhile (· == ' ')).length (indent - c.column)) = width
    have hskip := Cursor.left_skip c width
    split
    · rfl
    · rename_i ch cs _ hrest
      split
      · rename_i hbreak
        have := Cursor.left_skipBreak_lt (c := c.skip width) (by rw [hrest]; exact hbreak)
        exact ih (by omega)
      · rfl
    · rfl

/-- A line takes its characters and its break, one of which is there. -/
theorem left_of_line {ch : Char} {cs : List Char} (hrest : c.rest = ch :: cs) :
    (c.skip (c.rest.takeWhile fun ch => !isBreak ch).length).skipBreak.2.left < c.left := by
  have hleft := Cursor.left_of_rest hrest
  have hskip := Cursor.left_skip c (c.rest.takeWhile fun ch => !isBreak ch).length
  by_cases hbreak : isBreak ch = true
  · have hnone : c.rest.takeWhile (fun ch => !isBreak ch) = [] := by
      rw [hrest, List.takeWhile_cons_of_neg (by simp [hbreak])]
    have hsame : c.skip (c.rest.takeWhile fun ch => !isBreak ch).length = c := by
      rw [hnone]
      rfl
    rw [hsame]
    exact Cursor.left_skipBreak_lt (by rw [hrest]; exact hbreak)
  · have hsome : (c.rest.takeWhile fun ch => !isBreak ch) =
        ch :: cs.takeWhile fun ch => !isBreak ch := by
      rw [hrest, List.takeWhile_cons_of_pos (by simpa using hbreak)]
    have hpos : 0 < (c.rest.takeWhile fun ch => !isBreak ch).length := by
      rw [hsome]
      exact Nat.succ_pos _
    have := Cursor.left_skipBreak_le (c.skip (c.rest.takeWhile fun ch => !isBreak ch).length)
    omega

theorem blockLines_stops (literal : Bool) (indent fuel : Nat) (c : Cursor)
    (acc last breaks : List Char) (blank : Bool) :
    Within leftAfter (c.left + 1) (blockLines literal indent fuel c acc last breaks blank) := by
  induction fuel generalizing c acc last breaks blank with
  | zero => exact within_none
  | succ fuel ih =>
    unfold blockLines
    split
    · exact within_some (Nat.lt_succ_self _)
    · rename_i ch cs hrest
      have hline := left_of_line hrest
      split
      · dsimp only
        split
        · exact within_none
        · rename_i breaks' deepest c' hbreaks
          have hc' := blockBreaks_stops _ _ _ _ _ breaks' (deepest, c') hbreaks
          dsimp only [leftBelow] at hc'
          exact (ih c' _ _ _ _).mono (by omega)
      · exact within_some (Nat.lt_succ_self _)

theorem blockLines_steady (h : c.left + 1 ≤ fuel) :
    blockLines literal indent (fuel + 1) c acc last breaks blank =
      blockLines literal indent fuel c acc last breaks blank := by
  induction fuel generalizing c acc last breaks blank with
  | zero => exact absurd h (by omega)
  | succ fuel ih =>
    unfold blockLines
    split
    · rfl
    · rename_i ch cs hrest
      have hline := left_of_line hrest
      split
      · dsimp only
        split
        · rfl
        · rename_i breaks' deepest c' hbreaks
          have hc' := blockBreaks_stops _ _ _ _ _ breaks' (deepest, c') hbreaks
          dsimp only [leftBelow] at hc'
          rw [ih (by omega)]
      · rfl

theorem blockBreaks_suffices (indent : Nat) (c : Cursor) (breaks : List Char) (deepest : Nat) :
    Suffices (c.rest.length + 1) fun fuel => blockBreaks indent fuel c breaks deepest :=
  suffices_of_succ fun _ hfuel => blockBreaks_steady hfuel

theorem blockLines_suffices (literal : Bool) (indent : Nat) (c : Cursor)
    (acc last breaks : List Char) (blank : Bool) :
    Suffices (c.rest.length + 1) fun fuel =>
      blockLines literal indent fuel c acc last breaks blank :=
  suffices_of_succ fun _ hfuel => blockLines_steady hfuel

end Lines

theorem blockScalar_stops (literal : Bool) (parent : Int) (c : Cursor) :
    Stops ((c.skip 1).left + 1) (blockScalar literal parent c) := by
  unfold blockScalar
  refine Within.bind fun ⟨how, given, c₁⟩ hheader => ?_
  refine Within.bind fun c₂ hline => ?_
  refine Within.bind fun ⟨breaks, deepest, c₃⟩ hbreaks => ?_
  refine Within.bind fun ⟨acc, last, breaks', c₄⟩ hlines => within_some ?_
  have hc₁ := left_of_blockHeader hheader
  have hc₂ := Cursor.left_of_pastLine? hline
  have hc₃ := blockBreaks_stops _ _ _ _ _ breaks (deepest, c₃) hbreaks
  have hc₄ := blockLines_stops _ _ _ _ _ _ _ _ acc (last, breaks', c₄) hlines
  dsimp only [leftBelow, leftAfter] at hc₃ hc₄ ⊢
  omega

end Yaml

end Polydoc
