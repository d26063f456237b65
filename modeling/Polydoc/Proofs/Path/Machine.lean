/-
  Proofs/Path/Machine.lean --- the moves of the path reader.

  `Move` lists, once, everything that a turn of the machine can do when it does not fail, with the
  conditions under which it does it, and `Refusal` how it fails.  The properties of whole runs are
  proved from these lists and never from the code of a turn.
-/
import Polydoc.Path.Reader

set_option autoImplicit false

namespace Polydoc.Path.Scan

open Polydoc.Text (isLetter isLetterOrNumeral)

/-! ## Moves -/

/-- One turn of the reader that does not fail. -/
inductive Move : Scan → Scan → Prop where
  | openQuote {rest : List Char} {position : Nat} {pending : List Char} {found : List Element} :
      Move ⟨'"' :: rest, position, .start, pending, found⟩
        ⟨rest, position + 1, .quoted, [], found⟩
  | toBare {c : Char} {rest : List Char} {position : Nat} {pending : List Char}
      {found : List Element} (notQuote : c ≠ '"') :
      Move ⟨c :: rest, position, .start, pending, found⟩
        ⟨c :: rest, position, .bare, [], found⟩
  | toDots {rest : List Char} {position : Nat} {found : List Element} :
      Move ⟨'.' :: rest, position, .bare, [], found⟩ ⟨'.' :: rest, position, .dots, [], found⟩
  | letter {c : Char} {rest : List Char} {position : Nat} {found : List Element}
      (first : isLetter c = true) :
      Move ⟨c :: rest, position, .bare, [], found⟩ ⟨rest, position + 1, .bare, [c], found⟩
  | letterOrDigit {c : Char} {rest : List Char} {position : Nat} {pending : List Char}
      {found : List Element} (begun : pending ≠ []) (other : isLetterOrNumeral c = true) :
      Move ⟨c :: rest, position, .bare, pending, found⟩
        ⟨rest, position + 1, .bare, pending ++ [c], found⟩
  | endBare {rest : List Char} {position : Nat} {pending : List Char} {found : List Element}
      (begun : pending ≠ []) :
      Move ⟨'/' :: rest, position, .bare, pending, found⟩
        ⟨'/' :: rest, position, .separator, [], found ++ [.name (String.ofList pending)]⟩
  | backslash {rest : List Char} {position : Nat} {pending : List Char} {found : List Element} :
      Move ⟨'\\' :: rest, position, .quoted, pending, found⟩
        ⟨rest, position + 1, .escape, pending, found⟩
  | escaped {c : Char} {rest : List Char} {position : Nat} {pending : List Char}
      {found : List Element} :
      Move ⟨c :: rest, position, .escape, pending, found⟩
        ⟨rest, position + 1, .quoted, pending ++ [c], found⟩
  | plain {c : Char} {rest : List Char} {position : Nat} {pending : List Char}
      {found : List Element} (notQuote : c ≠ '"') (notBackslash : c ≠ '\\') :
      Move ⟨c :: rest, position, .quoted, pending, found⟩
        ⟨rest, position + 1, .quoted, pending ++ [c], found⟩
  | closeQuote {rest : List Char} {position : Nat} {pending : List Char} {found : List Element} :
      Move ⟨'"' :: rest, position, .quoted, pending, found⟩
        ⟨rest, position + 1, .separator, [], found ++ [.name (String.ofList pending)]⟩
  | dot {rest : List Char} {position : Nat} {pending : List Char} {found : List Element}
      (room : pending.length < 2) :
      Move ⟨'.' :: rest, position, .dots, pending, found⟩
        ⟨rest, position + 1, .dots, pending ++ ['.'], found⟩
  | endDots {rest : List Char} {position : Nat} {pending : List Char} {found : List Element} :
      Move ⟨'/' :: rest, position, .dots, pending, found⟩
        ⟨'/' :: rest, position, .separator, [],
          found ++ [if pending = ['.'] then .self else .parent]⟩
  | slash {rest : List Char} {position : Nat} {pending : List Char} {found : List Element} :
      Move ⟨'/' :: rest, position, .separator, pending, found⟩
        ⟨rest, position + 1, .start, pending, found⟩

/-- A move is a turn on the character in front. -/
theorem Move.turn {s t : Scan} (h : Move s t) :
    ∃ c rest, s.rest = c :: rest ∧ s.turn c rest = .ok t := by
  cases h with
  | openQuote => exact ⟨_, _, rfl, rfl⟩
  | toBare notQuote => exact ⟨_, _, rfl, by simp [Scan.turn, notQuote]⟩
  | toDots => exact ⟨_, _, rfl, rfl⟩
  | @letter c _ _ _ first =>
    have other := Text.isLetterOrNumeral_of_isLetter first
    have hslash : c ≠ '/' := by rintro rfl; exact absurd first (by decide)
    have hdot : c ≠ '.' := by rintro rfl; exact absurd first (by decide)
    exact ⟨_, _, rfl, by simp [Scan.turn, advance, first, other, hslash, hdot]⟩
  | @letterOrDigit c _ _ _ _ begun other =>
    have hslash : c ≠ '/' := by rintro rfl; exact absurd other (by decide)
    exact ⟨_, _, rfl, by simp [Scan.turn, advance, begun, other, hslash]⟩
  | endBare begun => exact ⟨_, _, rfl, by simp [Scan.turn, closeName, begun]⟩
  | backslash => exact ⟨_, _, rfl, rfl⟩
  | escaped => exact ⟨_, _, rfl, rfl⟩
  | plain notQuote notBackslash =>
    exact ⟨_, _, rfl, by simp [Scan.turn, advance, notQuote, notBackslash]⟩
  | closeQuote => exact ⟨_, _, rfl, rfl⟩
  | @dot _ _ pending _ room =>
    have hlen : ¬ 2 < pending.length + 1 := by omega
    exact ⟨_, _, rfl, by simp [Scan.turn, advance, hlen]⟩
  | endDots => exact ⟨_, _, rfl, rfl⟩
  | slash => exact ⟨_, _, rfl, rfl⟩

/-- A turn on the character in front that does not fail is a move. -/
theorem move_of_turn {s t : Scan} {c : Char} {rest : List Char} (hr : s.rest = c :: rest)
    (h : s.turn c rest = .ok t) : Move s t := by
  obtain ⟨text, position, mode, pending, found⟩ := s
  subst hr
  cases mode <;> simp only [Scan.turn] at h
  case start =>
    split at h <;> cases h
    · rename_i hc
      subst hc
      exact .openQuote
    · rename_i hc
      exact .toBare hc
  case bare =>
    split at h
    · rename_i hc
      subst hc
      split at h <;> cases h
      rename_i hp
      exact .endBare (by simpa using hp)
    · cases pending with
      | nil =>
        simp only [List.isEmpty_nil, Bool.true_and, beq_iff_eq, Bool.not_eq_true'] at h
        split at h
        · rename_i hc
          subst hc
          cases h
          exact .toDots
        · split at h
          · cases h
          · rename_i hl
            have first : isLetter c = true := by simpa using hl
            rw [Text.isLetterOrNumeral_of_isLetter first] at h
            cases h
            exact .letter first
      | cons d ds =>
        simp only [List.isEmpty_cons, Bool.false_and, Bool.false_eq_true, if_false] at h
        split at h
        · cases h
        · rename_i hl
          cases h
          exact .letterOrDigit (by simp) (by simpa using hl)
  case quoted =>
    split at h
    · rename_i hc
      subst hc
      cases h
      exact .backslash
    · rename_i hb
      split at h <;> cases h
      · rename_i hc
        subst hc
        exact .closeQuote
      · rename_i hq
        exact .plain hq hb
  case escape =>
    cases h
    exact .escaped
  case separator =>
    split at h <;> cases h
    rename_i hc
    subst hc
    exact .slash
  case dots =>
    split at h
    · rename_i hc
      subst hc
      split at h <;> cases h
      rename_i hlen
      exact .dot (by simp only [List.length_append, List.length_singleton] at hlen; omega)
    · split at h <;> cases h
      rename_i hc
      subst hc
      exact .endDots

/-! ## Refusals -/

/-- One turn of the reader that fails, and the error. -/
inductive Refusal : Scan → ReadError → Prop where
  | emptyElement {rest : List Char} {position : Nat} {found : List Element} :
      Refusal ⟨'/' :: rest, position, .bare, [], found⟩ (.emptyElement position)
  | notLetter {c : Char} {rest : List Char} {position : Nat} {found : List Element}
      (notSlash : c ≠ '/') (notDot : c ≠ '.') (first : isLetter c = false) :
      Refusal ⟨c :: rest, position, .bare, [], found⟩
        (.unexpectedCharacter position c .letterFirst)
  | notLetterOrDigit {c : Char} {rest : List Char} {position : Nat} {pending : List Char}
      {found : List Element} (begun : pending ≠ []) (notSlash : c ≠ '/')
      (other : isLetterOrNumeral c = false) :
      Refusal ⟨c :: rest, position, .bare, pending, found⟩
        (.unexpectedCharacter position c .letterOrDigit)
  | notSlash {c : Char} {rest : List Char} {position : Nat} {pending : List Char}
      {found : List Element} (other : c ≠ '/') :
      Refusal ⟨c :: rest, position, .separator, pending, found⟩
        (.unexpectedCharacter position c .slash)
  | thirdDot {rest : List Char} {position : Nat} {pending : List Char} {found : List Element}
      (full : 2 ≤ pending.length) :
      Refusal ⟨'.' :: rest, position, .dots, pending, found⟩
        (.invalidElement (position + 1 - (pending ++ ['.']).length)
          (String.ofList (pending ++ ['.'])))
  | notDotOrSlash {c : Char} {rest : List Char} {position : Nat} {pending : List Char}
      {found : List Element} (notDot : c ≠ '.') (notSlash : c ≠ '/') :
      Refusal ⟨c :: rest, position, .dots, pending, found⟩
        (.unexpectedCharacter position c .dotOrSlash)

/-- A refusal is a failing turn on the character in front, whatever stands behind it. -/
theorem Refusal.turn {s : Scan} {e : ReadError} (h : Refusal s e) :
    ∃ c rest, s.rest = c :: rest ∧
      ∀ more, ({ s with rest := c :: more } : Scan).turn c more = .error e := by
  cases h with
  | emptyElement => exact ⟨_, _, rfl, fun more => rfl⟩
  | notLetter notSlash notDot first =>
    exact ⟨_, _, rfl, fun more => by simp [Scan.turn, unexpected, notSlash, notDot, first]⟩
  | notLetterOrDigit begun notSlash other =>
    exact ⟨_, _, rfl, fun more => by simp [Scan.turn, unexpected, begun, notSlash, other]⟩
  | notSlash other => exact ⟨_, _, rfl, fun more => by simp [Scan.turn, unexpected, other]⟩
  | @thirdDot _ _ pending _ full =>
    have hlen : 2 < (pending ++ ['.']).length := by
      rw [List.length_append, List.length_singleton]
      omega
    exact ⟨_, _, rfl, fun more => by rw [Scan.turn]; simp only [if_true, if_pos hlen]⟩
  | notDotOrSlash notDot notSlash =>
    exact ⟨_, _, rfl, fun more => by simp [Scan.turn, unexpected, notDot, notSlash]⟩

/-- A turn on the character in front that fails is a refusal. -/
theorem refusal_of_turn {s : Scan} {c : Char} {rest : List Char} {e : ReadError}
    (hr : s.rest = c :: rest) (h : s.turn c rest = .error e) : Refusal s e := by
  obtain ⟨text, position, mode, pending, found⟩ := s
  subst hr
  cases mode <;> simp only [Scan.turn] at h
  case start => split at h <;> cases h
  case bare =>
    split at h
    · rename_i hc
      subst hc
      split at h <;> cases h
      rename_i hp
      rw [List.isEmpty_iff.mp hp]
      exact .emptyElement
    · rename_i hslash
      cases pending with
      | nil =>
        simp only [List.isEmpty_nil, Bool.true_and, beq_iff_eq, Bool.not_eq_true'] at h
        split at h
        · cases h
        · rename_i hdot
          split at h
          · rename_i hfirst
            cases h
            exact .notLetter hslash hdot hfirst
          · rename_i hl
            rw [Text.isLetterOrNumeral_of_isLetter (by simpa using hl)] at h
            cases h
      | cons d ds =>
        simp only [List.isEmpty_cons, Bool.false_and, Bool.false_eq_true, if_false] at h
        split at h
        · rename_i hother
          cases h
          exact .notLetterOrDigit (by simp) hslash (by simpa using hother)
        · cases h
  case quoted =>
    split at h
    · cases h
    · split at h <;> cases h
  case escape => cases h
  case separator =>
    split at h <;> cases h
    rename_i hc
    exact .notSlash hc
  case dots =>
    split at h
    · rename_i hc
      subst hc
      split at h <;> cases h
      rename_i hlen
      exact .thirdDot (by simp only [List.length_append, List.length_singleton] at hlen; omega)
    · rename_i hdot
      split at h
      · cases h
      · rename_i hslash
        cases h
        exact .notDotOrSlash hdot hslash

/-! ## Runs -/

theorem run_nil {s : Scan} (h : s.rest = []) : s.run = .ok s := by
  rw [run]
  split
  · rfl
  · rename_i hr
    rw [h] at hr
    cases hr

theorem run_cons {s : Scan} {c : Char} {rest : List Char} (h : s.rest = c :: rest) :
    s.run = (s.turn c rest).bind run := by
  rw [run]
  split
  · rename_i hr
    rw [h] at hr
    cases hr
  · rename_i hr
    rw [h] at hr
    cases hr
    split <;> rename_i ht <;> rw [ht] <;> rfl

/-- A run goes on from where a move leads. -/
theorem Move.run_eq {s t : Scan} (h : Move s t) : s.run = t.run := by
  obtain ⟨c, rest, hr, ht⟩ := h.turn
  rw [run_cons hr, ht]
  rfl

/-- What holds of a state and is kept by every move holds where a run ends, and a run that does not
fail ends at the end of the text. -/
theorem run_invariant {holds : Scan → Prop} (keeps : ∀ {s t : Scan}, Move s t → holds s → holds t)
    {s t : Scan} (h : s.run = .ok t) (hs : holds s) : holds t ∧ t.rest = [] := by
  induction s using run.induct with
  | case1 s hr =>
    rw [run_nil hr] at h
    cases h
    exact ⟨hs, hr⟩
  | case2 s c rest hr e he =>
    rw [run_cons hr, he] at h
    cases h
  | case3 s c rest hr u hu ih =>
    rw [run_cons hr, hu] at h
    exact ih h (keeps (move_of_turn hr hu) hs)

/-- What stands behind the character that is refused does not matter. -/
theorem Refusal.run_eq {s : Scan} {e : ReadError} (h : Refusal s e) :
    ∃ c rest, s.rest = c :: rest ∧
      ∀ more, ({ s with rest := c :: more } : Scan).run = .error e := by
  obtain ⟨c, rest, hr, hturn⟩ := h.turn
  refine ⟨c, rest, hr, fun more => ?_⟩
  rw [run_cons rfl, hturn more]
  rfl

/-- A run that fails comes to a refusal; what holds at its start and is kept by every move holds
there. -/
theorem refusal_of_run {holds : Scan → Prop} (keeps : ∀ {s t : Scan}, Move s t → holds s → holds t)
    {s : Scan} {e : ReadError} (h : s.run = .error e) (hs : holds s) :
    ∃ t, holds t ∧ Refusal t e := by
  induction s using run.induct with
  | case1 s hr =>
    rw [run_nil hr] at h
    cases h
  | case2 s c rest hr other hother =>
    rw [run_cons hr, hother] at h
    cases h
    exact ⟨s, hs, refusal_of_turn hr hother⟩
  | case3 s c rest hr u hu ih =>
    rw [run_cons hr, hu] at h
    exact ih h (keeps (move_of_turn hr hu) hs)

end Polydoc.Path.Scan
