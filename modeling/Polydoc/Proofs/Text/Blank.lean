/-
  Proofs/Text/Blank.lean --- what is left of a text without the blanks at its ends.
-/
import Mathlib.Data.List.DropRight
import Polydoc.Text.Blank

set_option autoImplicit false

namespace Polydoc.Text

/-- A text of blanks alone. -/
def Blanks (cs : List Char) : Prop := ∀ c ∈ cs, isBlank c = true

theorem blanks_nil : Blanks [] := fun _ hc => absurd hc List.not_mem_nil

variable {cs before after : List Char}

theorem Blanks.dropWhile_eq_nil (h : Blanks cs) : cs.dropWhile isBlank = [] := by
  rw [← List.append_nil cs, List.dropWhile_append_of_pos h, List.dropWhile_nil]

theorem trimRight_eq_rdropWhile (cs : List Char) : trimRight cs = cs.rdropWhile isBlank := rfl

theorem trimRight_append (h : Blanks after) (cs : List Char) :
    trimRight (cs ++ after) = trimRight cs := by
  unfold trimRight
  rw [List.reverse_append, List.dropWhile_append_of_pos fun c hc => h c (List.mem_reverse.mp hc)]

/-- Blanks around a text do not count. -/
theorem trim_append (hbefore : Blanks before) (hafter : Blanks after) (cs : List Char) :
    trim (before ++ cs ++ after) = trim cs := by
  unfold trim
  rw [List.append_assoc, List.dropWhile_append_of_pos hbefore, List.dropWhile_append]
  split
  · rename_i hempty
    rw [hafter.dropWhile_eq_nil, List.isEmpty_iff.mp hempty]
  · exact trimRight_append hafter _

theorem trim_dropWhile (cs : List Char) : trim (cs.dropWhile isBlank) = trim cs := by
  rw [trim, trim, List.dropWhile_idempotent]

/-- Behind a character that is not blank nothing is dropped. -/
theorem trim_snoc {c : Char} (h : isBlank c = false) (cs : List Char) :
    trim (cs ++ [c]) = cs.dropWhile isBlank ++ [c] := by
  have hkept : trimRight (cs.dropWhile isBlank ++ [c]) = cs.dropWhile isBlank ++ [c] := by
    rw [trimRight_eq_rdropWhile, List.rdropWhile_concat_neg _ _ _ (by simp [h])]
  unfold trim
  rw [List.dropWhile_append]
  split
  · rename_i hempty
    rw [List.isEmpty_iff.mp hempty] at hkept ⊢
    rw [List.dropWhile_cons_of_neg (by simp [h])]
    exact hkept
  · exact hkept

/-- A text that neither begins nor ends with a blank is left as it is. -/
theorem trim_eq_self (hhead : ∀ c, cs.head? = some c → isBlank c = false)
    (hlast : ∀ c, cs.getLast? = some c → isBlank c = false) : trim cs = cs := by
  have hfront : cs.dropWhile isBlank = cs := by
    cases cs with
    | nil => rfl
    | cons c rest => exact List.dropWhile_cons_of_neg (by simp [hhead c rfl])
  rw [trim, hfront, trimRight_eq_rdropWhile, List.rdropWhile_eq_self_iff]
  intro hne
  simp [hlast _ (List.getLast?_eq_some_getLast hne)]

theorem head?_trim {c : Char} (h : (trim cs).head? = some c) : isBlank c = false := by
  obtain ⟨more, hmore⟩ := List.rdropWhile_prefix isBlank (cs.dropWhile isBlank)
  have hnot := List.head?_dropWhile_not isBlank cs
  rw [← hmore, List.head?_append, ← trimRight_eq_rdropWhile, ← trim.eq_1, h] at hnot
  exact hnot

theorem getLast?_trim {c : Char} (h : (trim cs).getLast? = some c) : isBlank c = false := by
  have hnot := List.head?_dropWhile_not isBlank (cs.dropWhile isBlank).reverse
  rw [trim, trimRight, List.getLast?_reverse] at h
  rw [h] at hnot
  exact hnot

end Polydoc.Text
