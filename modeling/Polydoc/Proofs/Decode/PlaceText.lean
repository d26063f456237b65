/-
  Proofs/Decode/PlaceText.lean --- the written form of a place, and where it is the dotted one.

  A text without characters stands for the root while a place is written, so an empty name leaves no
  trace until something is written.  From then on each step adds its own segment.
-/
import Polydoc.Decode

set_option autoImplicit false

namespace Polydoc.Decode

/-- The written form of what comes behind a first step. -/
def dottedRest : Place → String
  | [] => ""
  | .member name :: rest => "." ++ name ++ dottedRest rest
  | .item index :: rest => "[" ++ toString index ++ "]" ++ dottedRest rest

/-- A place in dotted form: one segment for each member, empty names included, with the items behind
the segment that they belong to. -/
def dotted : Place → String
  | .member name :: rest => name ++ dottedRest rest
  | place => dottedRest place

/-- A place that begins with an empty name, and nothing else belongs to the segment of that name. -/
def Hidden : Place → Prop
  | .member name :: rest => name = "" ∧ ∀ index more, rest ≠ .item index :: more
  | _ => False

/-! ## Steps -/

theorem append_member {text : String} (h : text ≠ "") (name : String) :
    Step.append text (.member name) = text ++ ("." ++ name) := by
  rw [Step.append, String.isEmpty_eq_false_iff.mpr h, String.append_assoc]
  rfl

theorem append_item (text : String) (index : Nat) :
    Step.append text (.item index) = text ++ ("[" ++ toString index ++ "]") := by
  rw [Step.append, ← String.append_assoc, ← String.append_assoc]
  rfl

theorem foldl_append_eq {text : String} (h : text ≠ "") (place : Place) :
    place.foldl Step.append text = text ++ dottedRest place := by
  induction place generalizing text with
  | nil => rw [List.foldl_nil, dottedRest, String.append_empty]
  | cons step rest ih =>
    have hlonger (more : String) : text ++ more ≠ "" :=
      fun heq => h (String.append_eq_empty_iff.mp heq).1
    rw [List.foldl_cons]
    cases step with
    | member name =>
      rw [append_member h, ih (hlonger _), dottedRest, String.append_assoc]
    | item index =>
      rw [append_item, ih (hlonger _), dottedRest, String.append_assoc]

/-- What is left of a place without the empty names that it begins with. -/
def shown (place : Place) : Place := place.dropWhile (· = .member "")

theorem shown_empty (rest : Place) : shown (.member "" :: rest) = shown rest := by
  rw [shown, List.dropWhile_cons_of_pos (by simp)]
  rfl

theorem shown_eq_self {step : Step} (h : step ≠ .member "") (rest : Place) :
    shown (step :: rest) = step :: rest := by
  rw [shown, List.dropWhile_cons_of_neg (by simpa using h)]

/-- Nothing is written for a place only if it is empty or begins with an empty name. -/
theorem dotted_ne_empty {step : Step} (h : step ≠ .member "") (rest : Place) :
    dotted (step :: rest) ≠ "" := by
  intro heq
  cases step with
  | member name =>
    rw [dotted, String.append_eq_empty_iff] at heq
    exact h (congrArg Step.member heq.1)
  | item index =>
    have hitem : dotted (.item index :: rest) = "[" ++ toString index ++ "]" ++ dottedRest rest :=
      rfl
    simp only [hitem, String.append_eq_empty_iff] at heq
    exact absurd heq.1.2 (by decide)

/-- Empty names in front leave no trace. -/
theorem foldl_append_empty (place : Place) :
    place.foldl Step.append "" = dotted (shown place) := by
  induction place with
  | nil => rfl
  | cons step rest ih =>
    rw [List.foldl_cons]
    cases step with
    | member name =>
      by_cases hname : name = ""
      · rw [hname, shown_empty, ← ih]
        rfl
      · rw [shown_eq_self (by simpa using hname)]
        exact foldl_append_eq hname rest
    | item index =>
      have hitem : "[" ++ toString index ++ "]" ≠ "" := by
        rw [Ne, String.append_eq_empty_iff]
        exact fun h => absurd h.2 (by decide)
      rw [shown_eq_self Step.noConfusion, append_item, String.empty_append,
        foldl_append_eq hitem]
      rfl

/-- A place is written without the empty names in front, and as the root if nothing is left. -/
theorem placeText_eq (place : Place) :
    placeText place = if shown place = [] then "<root>" else dotted (shown place) := by
  unfold placeText
  dsimp only
  rw [foldl_append_empty]
  cases hshown : shown place with
  | nil => rfl
  | cons step rest =>
    have hstep := List.head?_dropWhile_not (fun s : Step => decide (s = .member "")) place
    rw [← shown, hshown] at hstep
    have hne : dotted (step :: rest) ≠ "" := dotted_ne_empty (by simpa using hstep) rest
    rw [if_neg fun h => hne (String.isEmpty_iff.mp h), if_neg (List.cons_ne_nil _ _)]

theorem length_dotted_le (place : Place) : (dotted place).length ≤ (dottedRest place).length := by
  cases place with
  | nil => exact Nat.le_refl _
  | cons step rest =>
    cases step with
    | member name =>
      rw [dotted, dottedRest, String.append_assoc, String.length_append "."]
      exact Nat.le_add_left _ _
    | item index => exact Nat.le_refl _

theorem length_dotted_shown_le (place : Place) :
    (dotted (shown place)).length ≤ (dotted place).length := by
  induction place with
  | nil => exact Nat.le_refl _
  | cons step rest ih =>
    by_cases hstep : step = .member ""
    · rw [hstep, shown_empty, dotted, String.empty_append]
      exact Nat.le_trans ih (length_dotted_le rest)
    · exact Nat.le_of_eq (by rw [shown_eq_self hstep])

/-- What is written for a place is not what stands for it behind an empty name. -/
theorem placeText_ne_dot (place : Place) : placeText place ≠ "." ++ dotted place := by
  rw [placeText_eq]
  intro heq
  split at heq
  · -- neither begins like the other
    have hhead := congrArg (fun s : String => s.toList.head?) heq
    simp at hhead
  · -- what is written is shorter
    have hlength := length_dotted_shown_le place
    have hdot : ".".length = 1 := rfl
    rw [heq, String.length_append] at hlength
    omega

/-- The written form is the dotted one, unless the place begins with an empty name that is lost. -/
theorem placeText_eq_dotted_iff {place : Place} (h : place ≠ []) :
    placeText place = dotted place ↔ ¬ Hidden place := by
  obtain ⟨step, rest, rfl⟩ := List.exists_cons_of_ne_nil h
  by_cases hstep : step = .member ""
  · have hlost : placeText (step :: rest) = placeText rest := by
      rw [hstep]
      rfl
    rw [hlost, hstep, dotted, String.empty_append]
    cases rest with
    | nil =>
      have hhidden : Hidden [.member ""] := ⟨rfl, fun _ _ => (List.cons_ne_nil _ _).symm⟩
      exact iff_of_false (by decide) (not_not_intro hhidden)
    | cons next more =>
      cases next with
      | item index =>
        rw [placeText_eq, shown_eq_self Step.noConfusion, if_neg (List.cons_ne_nil _ _)]
        exact iff_of_true rfl fun hhidden => hhidden.2 index more rfl
      | member name =>
        have hhidden : Hidden (.member "" :: .member name :: more) := by
          refine ⟨rfl, ?_⟩
          rintro index more' ⟨⟩
        have hdot : dottedRest (.member name :: more) = "." ++ dotted (.member name :: more) := by
          rw [dottedRest, dotted, String.append_assoc]
        rw [hdot]
        exact iff_of_false (placeText_ne_dot _) (not_not_intro hhidden)
  · rw [placeText_eq, shown_eq_self hstep, if_neg (List.cons_ne_nil _ _)]
    refine iff_of_true rfl ?_
    cases step with
    | member name => exact fun hhidden => hstep (congrArg Step.member hhidden.1)
    | item index => exact id

end Polydoc.Decode
