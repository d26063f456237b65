/-
  Proofs/Toml/Leaving.lean --- what the readers of TOML texts, keys, dates and numbers leave: less
  than they were given.
-/
import Polydoc.Proofs.Fuel
import Polydoc.Toml.DateTime
import Polydoc.Toml.Number

set_option autoImplicit false

namespace Polydoc

namespace Toml

/-! ## Blanks and line breaks -/

theorem length_skipBlanks_le (cs : List Char) : (skipBlanks cs).length ≤ cs.length :=
  (List.dropWhile_sublist _).length_le

theorem length_of_skipBlanks {cs rest : List Char} {c : Char} (h : skipBlanks cs = c :: rest) :
    rest.length < cs.length := by
  have hskip := length_skipBlanks_le cs
  rw [h] at hskip
  exact hskip

theorem length_of_lineBreak? {cs rest : List Char} (h : lineBreak? cs = some rest) :
    rest.length < cs.length := by
  unfold lineBreak? at h
  split at h
  · cases h
    exact Nat.lt_succ_self _
  · cases h
    simp only [List.length_cons]
    omega
  · cases h

theorem length_firstLine_le (cs : List Char) : (firstLine cs).length ≤ cs.length := by
  unfold firstLine
  cases hbreak : lineBreak? cs with
  | none => exact Nat.le_refl _
  | some rest => exact Nat.le_of_lt (length_of_lineBreak? hbreak)

/-! ## Texts and keys -/

section Texts

variable {n : Nat} {r : Option (List Char × List Char)}

theorem prepend_leaves (h : Leaves n r) (c : Char) : Leaves n (prepend c r) :=
  h.map fun _ _ => rfl

theorem prependEscaped_leaves (h : Leaves n r) (c : Option Char) :
    Leaves n (prependEscaped c r) :=
  Within.bind fun c _ => prepend_leaves h c

end Texts

theorem basicText_leaves (cs : List Char) : Leaves cs.length (basicText cs) := by
  fun_induction basicText cs with
  | case2 rest => exact within_some (Nat.lt_succ_self _)
  | case3 | case4 | case5 =>
    rename_i ih
    exact (prependEscaped_leaves ih _).mono (by simp only [List.length_cons]; omega)
  | case6 =>
    rename_i ih
    exact (prepend_leaves ih _).mono (Nat.le_succ _)
  | _ => exact within_none

theorem literalText_leaves (cs : List Char) : Leaves cs.length (literalText cs) := by
  induction cs with
  | nil => exact within_none
  | cons c rest ih =>
    unfold literalText
    split
    · exact within_some (Nat.lt_succ_self _)
    · split
      · exact (prepend_leaves ih c).mono (Nat.le_succ _)
      · exact within_none

theorem length_closing_le (quote : Char) (cs : List Char) :
    (closing quote cs).2.length ≤ cs.length := by
  unfold closing
  split
  · split
    · simp only [List.length_cons]
      omega
    · split
      · exact Nat.le_succ _
      · exact Nat.le_refl _
  · split
    · exact Nat.le_succ _
    · exact Nat.le_refl _
  · exact Nat.le_refl _

theorem closing_leaves {n : Nat} {quote : Char} {cs : List Char} (h : cs.length < n) :
    Leaves n (some (closing quote cs)) :=
  within_some (Nat.lt_of_le_of_lt (length_closing_le quote cs) h)

theorem basicLines_leaves (skipping : Bool) (cs : List Char) :
    Leaves cs.length (basicLines skipping cs) := by
  fun_induction basicLines skipping cs with
  | case2 => exact closing_leaves (by simp only [List.length_cons]; omega)
  | case3 | case5 | case9 | case11 =>
    rename_i ih
    exact ih.mono (by simp only [List.length_cons]; omega)
  | case4 | case6 | case12 =>
    rename_i ih
    exact (prepend_leaves ih _).mono (by simp only [List.length_cons]; omega)
  | case7 | case8 | case10 =>
    rename_i ih
    exact (prependEscaped_leaves ih _).mono (by simp only [List.length_cons]; omega)
  | _ => exact within_none

theorem literalLines_leaves (cs : List Char) : Leaves cs.length (literalLines cs) := by
  fun_induction literalLines cs with
  | case2 => exact closing_leaves (by simp only [List.length_cons]; omega)
  | case3 | case4 =>
    rename_i ih
    exact (prepend_leaves ih _).mono (by simp only [List.length_cons]; omega)
  | _ => exact within_none

theorem text?_leaves (cs : List Char) : Leaves cs.length (text? cs) := by
  unfold text?
  split
  · rename_i rest
    have := length_firstLine_le rest
    exact ((basicLines_leaves false _).map fun _ _ => rfl).mono
      (by simp only [List.length_cons]; omega)
  · exact ((basicText_leaves _).map fun _ _ => rfl).mono (Nat.le_succ _)
  · rename_i rest
    have := length_firstLine_le rest
    exact ((literalLines_leaves _).map fun _ _ => rfl).mono
      (by simp only [List.length_cons]; omega)
  · exact ((literalText_leaves _).map fun _ _ => rfl).mono (Nat.le_succ _)
  · exact within_none

theorem simpleKey?_leaves (cs : List Char) : Leaves cs.length (simpleKey? cs) := by
  unfold simpleKey?
  split
  · exact ((basicText_leaves _).map fun _ _ => rfl).mono (Nat.le_succ _)
  · exact ((literalText_leaves _).map fun _ _ => rfl).mono (Nat.le_succ _)
  · split
    · exact within_none
    · rename_i hkey
      exact within_some (length_dropWhile_lt hkey)

theorem keys?_leaves (most : Nat) (cs : List Char) : Leaves cs.length (keys? most cs) := by
  induction most generalizing cs with
  | zero => exact within_none
  | succ most ih =>
    unfold keys?
    split
    · exact within_none
    · rename_i key rest hkey
      have := simpleKey?_leaves (skipBlanks cs) key rest hkey
      have := length_skipBlanks_le cs
      split
      · rename_i behind hdot
        have := length_of_skipBlanks hdot
        exact ((ih behind).map fun _ _ => rfl).mono (by omega)
      · have := length_skipBlanks_le rest
        exact within_some (by omega)

/-! ## Dates and times -/

theorem number?_leaves {width : Nat} (hwidth : 0 < width) (least greatest : Nat)
    (cs : List Char) : Leaves cs.length (number? width least greatest cs) := by
  unfold number?
  dsimp only
  split
  · rename_i hdigits
    have hlength := hdigits.1
    rw [List.length_take] at hlength
    exact within_some (by rw [List.length_drop]; omega)
  · exact within_none

theorem length_of_mark? {c : Char} {cs rest : List Char} (h : mark? c cs = some rest) :
    rest.length < cs.length := by
  unfold mark? at h
  split at h
  · cases h
  · split at h
    · cases h
      exact Nat.lt_succ_self _
    · cases h

theorem date?_leaves (cs : List Char) : Leaves cs.length (date? cs) := by
  refine Within.bind fun ⟨year, cs₁⟩ hyear => ?_
  refine Within.bind fun cs₂ hmark => ?_
  refine Within.bind fun ⟨month, cs₃⟩ hmonth => ?_
  refine Within.bind fun cs₄ hmark' => ?_
  refine Within.bind fun ⟨day, rest⟩ hday => within_some ?_
  have := number?_leaves (by decide) _ _ cs year cs₁ hyear
  have := length_of_mark? hmark
  have := number?_leaves (by decide) _ _ cs₂ month cs₃ hmonth
  have := length_of_mark? hmark'
  have := number?_leaves (by decide) _ _ cs₄ day rest hday
  omega

theorem length_secondFraction_le (cs : List Char) : (secondFraction cs).2.length ≤ cs.length := by
  unfold secondFraction
  split
  · split
    · exact Nat.le_succ_of_le (List.dropWhile_sublist _).length_le
    · exact Nat.le_refl _
  · exact Nat.le_refl _

theorem time?_leaves (cs : List Char) : Leaves cs.length (time? cs) := by
  refine Within.bind fun ⟨hour, cs₁⟩ hhour => ?_
  refine Within.bind fun cs₂ hmark => ?_
  refine Within.bind fun ⟨minute, cs₃⟩ hminute => ?_
  refine Within.bind fun cs₄ hmark' => ?_
  refine Within.bind fun ⟨second, cs₅⟩ hsecond => ?_
  have := number?_leaves (by decide) _ _ cs hour cs₁ hhour
  have := length_of_mark? hmark
  have := number?_leaves (by decide) _ _ cs₂ minute cs₃ hminute
  have := length_of_mark? hmark'
  have := number?_leaves (by decide) _ _ cs₄ second cs₅ hsecond
  have := length_secondFraction_le cs₅
  have hrest : (secondFraction cs₅).2.length < cs.length := by omega
  exact within_some hrest

theorem minutes?_leaves (cs : List Char) : Leaves cs.length (minutes? cs) := by
  refine Within.bind fun ⟨hour, cs₁⟩ hhour => ?_
  refine Within.bind fun cs₂ hmark => ?_
  refine Within.bind fun ⟨minute, rest⟩ hminute => within_some ?_
  have := number?_leaves (by decide) _ _ cs hour cs₁ hhour
  have := length_of_mark? hmark
  have := number?_leaves (by decide) _ _ cs₂ minute rest hminute
  omega

theorem offset?_leaves (cs : List Char) : Leaves cs.length (offset? cs) := by
  unfold offset?
  split
  · exact within_none
  · split
    · exact within_some (Nat.lt_succ_self _)
    · split
      · exact ((minutes?_leaves _).map fun _ _ => rfl).mono (Nat.le_succ _)
      · split
        · exact ((minutes?_leaves _).map fun _ _ => rfl).mono (Nat.le_succ _)
        · exact within_none

theorem timeBehind?_leaves (cs : List Char) : Leaves cs.length (timeBehind? cs) := by
  unfold timeBehind?
  split
  · exact within_none
  · split
    · exact (time?_leaves _).mono (Nat.le_succ _)
    · exact within_none

theorem dateTime?_leaves (cs : List Char) : Leaves cs.length (dateTime? cs) := by
  unfold dateTime?
  split
  · exact (time?_leaves cs).map fun _ _ => rfl
  · rename_i d rest hdate
    have := date?_leaves cs d rest hdate
    split
    · exact within_some this
    · rename_i t behind htime
      have := timeBehind?_leaves rest t behind htime
      split
      · exact within_some (by omega)
      · rename_i o left hoffset
        have := offset?_leaves behind o left hoffset
        exact within_some (by omega)

/-! ## Numbers -/

section Digits

variable (isDigit : Char → Bool)

theorem moreDigits_leaves (cs : List Char) : Leaves (cs.length + 1) (moreDigits isDigit cs) := by
  fun_induction moreDigits isDigit cs with
  | case1 => exact within_some (Nat.lt_succ_self _)
  | case2 | case4 =>
    rename_i ih
    exact (prepend_leaves ih _).mono (by simp only [List.length_cons]; omega)
  | case3 => exact within_none
  | case5 => exact within_some (Nat.lt_succ_self _)

theorem digits?_leaves (cs : List Char) : Leaves cs.length (digits? isDigit cs) := by
  unfold digits?
  split
  · exact within_none
  · split
    · exact prepend_leaves (moreDigits_leaves isDigit _) _
    · exact within_none

end Digits

theorem wholeDigits?_leaves (cs : List Char) : Leaves cs.length (wholeDigits? cs) := by
  unfold wholeDigits?
  split
  · exact within_some (Nat.lt_succ_self _)
  · exact digits?_leaves _ cs

theorem length_sign_le (cs : List Char) : (sign cs).2.length ≤ cs.length := by
  unfold sign
  split
  · exact Nat.le_succ _
  · exact Nat.le_succ _
  · exact Nat.le_refl _

theorem exponentValue?_leaves (cs : List Char) : Leaves cs.length (exponentValue? cs) :=
  ((digits?_leaves _ (sign cs).2).map fun _ _ => rfl).mono (length_sign_le cs)

theorem exponent?_leaves (cs : List Char) : Leaves (cs.length + 1) (exponent? cs) := by
  unfold exponent?
  split
  · exact within_some (Nat.lt_succ_self _)
  · split
    · exact ((exponentValue?_leaves _).map fun _ _ => rfl).mono
        (by simp only [List.length_cons]; omega)
    · exact within_some (Nat.lt_succ_self _)

theorem fraction?_leaves (cs : List Char) : Leaves (cs.length + 1) (fraction? cs) := by
  unfold fraction?
  split
  · exact ((digits?_leaves _ _).map fun _ _ => rfl).mono (by simp only [List.length_cons]; omega)
  · exact within_some (Nat.lt_succ_self _)

theorem decimal?_leaves (negative : Bool) (cs : List Char) :
    Leaves cs.length (decimal? negative cs) := by
  refine Within.bind fun ⟨whole, cs₁⟩ hwhole => ?_
  refine Within.bind fun ⟨fraction, cs₂⟩ hfraction => ?_
  refine Within.bind fun ⟨exponent, rest⟩ hexponent => ?_
  have := wholeDigits?_leaves cs whole cs₁ hwhole
  have := fraction?_leaves cs₁ fraction cs₂ hfraction
  have := exponent?_leaves cs₂ exponent rest hexponent
  have hrest : rest.length < cs.length := by omega
  dsimp only
  -- an integer or a float, with the same rest
  split
  · exact Within.bind fun value _ => within_some hrest
  · exact Within.bind fun value _ => within_some hrest

theorem radixInteger?_leaves (radix : Nat) (cs : List Char) :
    Leaves cs.length (radixInteger? radix cs) := by
  refine Within.bind fun ⟨digits, rest⟩ hdigits => ?_
  refine Within.bind fun n _ => ?_
  refine Within.bind fun value _ => within_some ?_
  exact digits?_leaves _ cs digits rest hdigits

theorem unsigned?_leaves (negative : Bool) (cs : List Char) :
    Leaves cs.length (unsigned? negative cs) := by
  unfold unsigned?
  split
  · exact within_some (by simp only [List.length_cons]; omega)
  · exact within_some (by simp only [List.length_cons]; omega)
  · exact decimal?_leaves negative cs

theorem number_leaves (cs : List Char) : Leaves cs.length (number cs) := by
  unfold number
  split
  · exact (radixInteger?_leaves _ _).mono (by simp only [List.length_cons]; omega)
  · exact (radixInteger?_leaves _ _).mono (by simp only [List.length_cons]; omega)
  · exact (radixInteger?_leaves _ _).mono (by simp only [List.length_cons]; omega)
  · exact (unsigned?_leaves _ _).mono (length_sign_le cs)

end Toml

end Polydoc
