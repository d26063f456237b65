/-
  Proofs/Text/Lowercase.lean --- the lower-case form of a text, up to the form that a sigma takes at
  the end of a word.

  What a capital sigma becomes depends on what stands around it, so that the lower-case form of two
  texts in a row is not that of one and that of the other.  With both small sigmas taken for the
  same character it is.  Endings without a sigma are the same in both.
-/
import Mathlib.Data.List.Induction
import Polydoc.Text.Lowercase

set_option autoImplicit false

namespace Polydoc.Text

/-- Takes the sigma of an end of a word for the usual one. -/
def usualSigma (c : Char) : Char := if c = 'ς' then 'σ' else c

/-- The lower-case form of a character, whatever stands around it, with one small sigma. -/
def foldChar (c : Char) : List Char := (lowerBetween [] c []).map usualSigma

/-- The lower-case form of a text with one small sigma. -/
def fold (cs : List Char) : List Char := cs.flatMap foldChar

theorem map_lowerBetween (before : List Char) (c : Char) (after : List Char) :
    (lowerBetween before c after).map usualSigma = foldChar c := by
  unfold foldChar lowerBetween
  by_cases hc : c = 'Σ'
  · rw [if_pos hc, if_pos hc]
    cases meetsCased before && !meetsCased after <;> rfl
  · rw [if_neg hc, if_neg hc]

theorem map_lowerAfter (before cs : List Char) :
    (lowerAfter before cs).map usualSigma = fold cs := by
  induction cs generalizing before with
  | nil => rfl
  | cons c cs ih =>
    rw [lowerAfter, List.map_append, map_lowerBetween, ih, fold, fold, List.flatMap_cons]

theorem fold_append (cs ds : List Char) : fold (cs ++ ds) = fold cs ++ fold ds := by
  rw [fold, List.flatMap_append, ← fold, ← fold]

theorem fold_singleton (c : Char) : fold [c] = foldChar c := by
  rw [fold, List.flatMap_singleton]

/-- The lower-case form of a text, as characters with one small sigma. -/
theorem map_lowercase (s : String) : (lowercase s).toList.map usualSigma = fold s.toList := by
  rw [lowercase, String.toList_ofList, map_lowerAfter]

/-! ## Texts without sigmas -/

/-- Whether a character is no small sigma. -/
def isSigma (c : Char) : Bool := c = 'ς' || c = 'σ'

theorem usualSigma_eq_iff {c x : Char} (hx : isSigma x = false) : usualSigma c = x ↔ c = x := by
  simp only [isSigma, Bool.or_eq_false_iff, decide_eq_false_iff_not] at hx
  unfold usualSigma
  by_cases hc : c = 'ς'
  · rw [if_pos hc]
    exact ⟨fun h => absurd h.symm hx.2, fun h => absurd (h.symm.trans hc) hx.1⟩
  · rw [if_neg hc]

theorem map_usualSigma_eq_iff {cs s : List Char} (hs : s.all (!isSigma ·)) :
    cs.map usualSigma = s ↔ cs = s := by
  induction s generalizing cs with
  | nil => rw [List.map_eq_nil_iff]
  | cons x s ih =>
    simp only [List.all_cons, Bool.and_eq_true, Bool.not_eq_true'] at hs
    cases cs with
    | nil => simp
    | cons c cs =>
      rw [List.map_cons, List.cons.injEq, List.cons.injEq, usualSigma_eq_iff hs.1, ih hs.2]

/-- An ending without sigmas is there if it is there up to the form of sigmas. -/
theorem isSuffix_map_usualSigma_iff {cs s : List Char} (hs : s.all (!isSigma ·)) :
    s <:+ cs.map usualSigma ↔ s <:+ cs := by
  rw [List.suffix_iff_eq_drop, List.suffix_iff_eq_drop, List.length_map, ← List.map_drop, eq_comm,
    map_usualSigma_eq_iff hs, eq_comm]

/-! ## Single characters -/

/-- A lower-case form is one character, but for that of `İ`. -/
theorem foldChar_eq_singleton (c : Char) :
    foldChar c = ['i', '\u0307'] ∨ ∃ d, foldChar c = [d] := by
  unfold foldChar lowerBetween lowerChar
  by_cases hc : c = 'Σ'
  · rw [if_pos hc]
    exact .inr ⟨_, rfl⟩
  rw [if_neg hc]
  split
  · exact .inr ⟨_, rfl⟩
  split
  · exact .inl rfl
  split <;> exact .inr ⟨_, rfl⟩

/-- The code points that a run maps to lie from the image of its first to that of its last. -/
theorem bounds_of_covers {r : CaseRun} {n : Nat} (h : r.covers n) : r.first ≤ n ∧ n ≤ r.last := by
  simp only [CaseRun.covers, Bool.and_eq_true, decide_eq_true_eq] at h
  exact h.1

/-- No character beyond ASCII becomes a full stop. -/
theorem lowerRuns_avoid : ∀ r ∈ lowerRuns,
    ¬ ((r.first : Int) + r.shift ≤ '.'.toNat ∧ ('.'.toNat : Int) ≤ r.last + r.shift) := by
  decide +kernel

theorem toNat_ofNat_eq (n : Nat) : (Char.ofNat n).toNat = n ∨ (Char.ofNat n).toNat = 0 := by
  by_cases hn : n.isValidChar
  · rw [Char.ofNat, dif_pos hn]
    exact .inl rfl
  · rw [Char.ofNat, dif_neg hn]
    exact .inr rfl

theorem lowerRun_ne_stop {r : CaseRun} {n : Nat} (hr : r ∈ lowerRuns) (hn : r.covers n) :
    Char.ofNat (n + r.shift).toNat ≠ '.' := by
  intro h
  have hbounds := bounds_of_covers hn
  have havoid := lowerRuns_avoid r hr
  have himage := toNat_ofNat_eq (n + r.shift).toNat
  rw [h] at himage
  have hstop : '.'.toNat = 46 := rfl
  omega

/-- Only a full stop becomes a full stop. -/
theorem eq_stop_of_foldChar {c : Char} (h : foldChar c = ['.']) : c = '.' := by
  unfold foldChar at h
  rw [map_usualSigma_eq_iff rfl] at h
  unfold lowerBetween lowerChar at h
  split at h
  · cases h
  split at h
  · next hlt =>
    have hascii : ∀ n < 0x80, (Char.ofNat n).toLower = '.' → Char.ofNat n = '.' := by decide
    have h' := hascii c.toNat hlt
    rw [Char.ofNat_toNat] at h'
    exact h' (List.head_eq_of_cons_eq h)
  split at h
  · cases h
  split at h
  · next r hr =>
    simp only [List.cons.injEq, and_true] at h
    have hcovers : r.covers c.toNat := List.find?_some (p := (CaseRun.covers · c.toNat)) hr
    exact absurd h (lowerRun_ne_stop (List.mem_of_find?_eq_some hr) hcovers)
  · exact List.head_eq_of_cons_eq h

theorem eq_nil_of_fold {cs : List Char} (h : fold cs = []) : cs = [] := by
  cases cs with
  | nil => rfl
  | cons c ds =>
    rw [fold, List.flatMap_cons, List.append_eq_nil_iff] at h
    cases foldChar_eq_singleton c with
    | inl hi => exact absurd (hi.symm.trans h.1) (List.cons_ne_nil _ _)
    | inr hd => exact absurd (hd.choose_spec.symm.trans h.1) (List.cons_ne_nil _ _)

/-- A lower-case form that starts with a character other than `i` starts with that of the first
character. -/
theorem fold_eq_cons {cs s : List Char} {x : Char} (hx : x ≠ 'i') (h : fold cs = x :: s) :
    ∃ c ds, cs = c :: ds ∧ foldChar c = [x] ∧ fold ds = s := by
  cases cs with
  | nil => cases h
  | cons c ds =>
    rw [fold, List.flatMap_cons, ← fold] at h
    cases foldChar_eq_singleton c with
    | inl hi =>
      rw [hi] at h
      exact absurd (List.head_eq_of_cons_eq h).symm hx
    | inr hd =>
      obtain ⟨d, hd⟩ := hd
      rw [hd, List.singleton_append, List.cons.injEq] at h
      exact ⟨c, ds, rfl, by rw [hd, h.1], h.2⟩

/-- An ending of a lower-case form is the lower-case form of an ending. -/
theorem exists_isSuffix_of_fold {cs s : List Char} (hs : '\u0307' ∉ s) (h : s <:+ fold cs) :
    ∃ g, g <:+ cs ∧ fold g = s := by
  induction s using List.reverseRecOn generalizing cs with
  | nil => exact ⟨[], List.nil_suffix, rfl⟩
  | append_singleton s x ih =>
    rw [List.mem_append, List.mem_singleton, not_or] at hs
    obtain ⟨pre, hpre⟩ := h
    cases cs using List.reverseRecOn with
    | nil => simp [fold] at hpre
    | append_singleton cs c =>
      rw [fold_append, fold_singleton, ← List.append_assoc] at hpre
      cases foldChar_eq_singleton c with
      | inl hi =>
        have hlast := congrArg List.getLast? hpre
        rw [hi, List.getLast?_concat, List.getLast?_append] at hlast
        exact absurd (Option.some.inj hlast).symm hs.2
      | inr hd =>
        obtain ⟨d, hd⟩ := hd
        rw [hd] at hpre
        obtain ⟨hrest, rfl⟩ := List.append_singleton_inj.mp hpre
        obtain ⟨g, hg, hfold⟩ := ih hs.1 ⟨pre, hrest⟩
        exact ⟨g ++ [c], List.suffix_append_self_iff.mpr hg, by
          rw [fold_append, fold_singleton, hfold, hd]⟩

end Polydoc.Text
