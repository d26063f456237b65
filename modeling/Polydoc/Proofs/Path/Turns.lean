/-
  Proofs/Path/Turns.lean --- the path reader takes at most three turns on a character.

  A turn that keeps the character in front hands it to a mode that needs fewer turns for it: a
  segment begins, turns out to be bare, and then to be of dots; or a segment ends, and the slash
  behind it is taken.  The first of these chains does not lead into the second, since dots that have
  just begun have a dot in front and no slash.  So the turns that are left are bounded by what is
  left of the text, three for each character behind the one in front.
-/
import Polydoc.Proofs.Path.Reading

set_option autoImplicit false

namespace Polydoc.Path

namespace Scan

/-! ## Runs -/

/-- A run of the reader: the states in which it takes a turn, one after another, and how it ends.
The last turn may be one that fails. -/
inductive Takes : Scan → List Scan → Except ReadError Scan → Prop where
  | ended {s : Scan} (nothing : s.rest = []) : Takes s [] (.ok s)
  | refused {s : Scan} {c : Char} {rest : List Char} {e : ReadError} (front : s.rest = c :: rest)
      (fails : s.turn c rest = .error e) : Takes s [s] (.error e)
  | moved {s t : Scan} {c : Char} {rest : List Char} {turns : List Scan}
      {outcome : Except ReadError Scan} (front : s.rest = c :: rest)
      (goes : s.turn c rest = .ok t) (more : Takes t turns outcome) : Takes s (s :: turns) outcome

section Runs

variable {s : Scan} {turns : List Scan} {outcome : Except ReadError Scan}

/-- Every run comes to an end. -/
theorem exists_takes (s : Scan) : ∃ turns, Takes s turns s.run := by
  induction s using run.induct with
  | case1 s hr => exact ⟨[], run_nil hr ▸ .ended hr⟩
  | case2 s c rest hr e he =>
    refine ⟨[s], ?_⟩
    rw [run_cons hr, he]
    exact .refused hr he
  | case3 s c rest hr t ht ih =>
    obtain ⟨turns, hturns⟩ := ih
    refine ⟨s :: turns, ?_⟩
    rw [run_cons hr, ht]
    exact .moved hr ht hturns

/-- There is one way to go on. -/
theorem Takes.unique {turns' : List Scan} {outcome' : Except ReadError Scan}
    (h : Takes s turns outcome) (h' : Takes s turns' outcome') :
    turns' = turns ∧ outcome' = outcome := by
  induction h generalizing turns' outcome' with
  | ended nothing =>
    cases h' with
    | ended _ => exact ⟨rfl, rfl⟩
    | refused front _ => simp [nothing] at front
    | moved front _ _ => simp [nothing] at front
  | refused front fails =>
    cases h' with
    | ended nothing => simp [front] at nothing
    | refused front' fails' =>
      cases front.symm.trans front'
      cases fails.symm.trans fails'
      exact ⟨rfl, rfl⟩
    | moved front' goes' _ =>
      cases front.symm.trans front'
      cases fails.symm.trans goes'
  | moved front goes _ ih =>
    cases h' with
    | ended nothing => simp [front] at nothing
    | refused front' fails' =>
      cases front.symm.trans front'
      cases goes.symm.trans fails'
    | moved front' goes' more' =>
      cases front.symm.trans front'
      cases goes.symm.trans goes'
      obtain ⟨rfl, rfl⟩ := ih more'
      exact ⟨rfl, rfl⟩

/-- What holds of a state and is kept by every move holds in each state of a run and where it ends,
and a run that does not fail ends at the end of the text. -/
theorem Takes.invariant {holds : Scan → Prop}
    (keeps : ∀ {s t : Scan}, Move s t → holds s → holds t) (h : Takes s turns outcome)
    (hs : holds s) :
    (∀ t ∈ turns, holds t) ∧ ∀ t, outcome = .ok t → holds t ∧ t.rest = [] := by
  induction h with
  | ended nothing =>
    refine ⟨fun _ ht => absurd ht List.not_mem_nil, ?_⟩
    rintro _ ⟨⟩
    exact ⟨hs, nothing⟩
  | refused _ _ =>
    refine ⟨fun t ht => ?_, nofun⟩
    rw [List.mem_singleton.mp ht]
    exact hs
  | moved front goes _ ih =>
    obtain ⟨hturns, hend⟩ := ih (keeps (move_of_turn front goes) hs)
    refine ⟨fun t ht => ?_, hend⟩
    rcases List.mem_cons.mp ht with rfl | ht
    · exact hs
    · exact hturns t ht

/-- A run that fails comes to a turn that is refused. -/
theorem Takes.exists_refusal {e : ReadError} (h : Takes s turns outcome) (he : outcome = .error e) :
    ∃ t ∈ turns, Refusal t e := by
  induction h with
  | ended _ => cases he
  | refused front fails =>
    cases he
    exact ⟨_, List.mem_singleton_self _, refusal_of_turn front fails⟩
  | moved _ _ _ ih =>
    obtain ⟨t, ht, hrefusal⟩ := ih he
    exact ⟨t, List.mem_cons_of_mem _ ht, hrefusal⟩

end Runs

/-! ## Turns on one character -/

/-- How many turns the mode may need for the character in front, the one that takes it or fails
included.  Dots need a second one where a slash ends them. -/
def needed (s : Scan) : Nat :=
  match s.mode with
  | .start => 3
  | .bare => 2
  | .dots => if s.rest.head? = some '/' then 2 else 1
  | .separator | .quoted | .escape => 1

theorem needed_bounds (s : Scan) : 0 < s.needed ∧ s.needed ≤ 3 := by
  obtain ⟨rest, position, mode, pending, found⟩ := s
  cases mode with
  | dots =>
    unfold needed
    dsimp only
    split <;> decide
  | _ => simp [needed]

/-- A move takes the character in front, or leaves it to a mode that needs fewer turns for it. -/
theorem Move.needed {s t : Scan} (h : Move s t) :
    (t.rest = s.rest ∧ t.position = s.position ∧ t.needed < s.needed) ∨
      (s.rest.length = t.rest.length + 1 ∧ t.position = s.position + 1) := by
  cases h with
  | toBare _ => exact .inl ⟨rfl, rfl, by simp [Scan.needed]⟩
  | toDots => exact .inl ⟨rfl, rfl, by simp [Scan.needed]⟩
  | endBare _ => exact .inl ⟨rfl, rfl, by simp [Scan.needed]⟩
  | endDots => exact .inl ⟨rfl, rfl, by simp [Scan.needed]⟩
  | _ => exact .inr ⟨rfl, rfl⟩

section Counting

variable {s : Scan} {turns : List Scan} {outcome : Except ReadError Scan}

/-- Three turns for each character that is left, less those that the one in front does not need. -/
theorem Takes.length_le (h : Takes s turns outcome) :
    turns.length ≤ 3 * s.rest.length - (3 - s.needed) := by
  induction h with
  | ended _ => exact Nat.zero_le _
  | @refused s _ _ _ front _ =>
    have hneeded := needed_bounds s
    rw [front, List.length_singleton, List.length_cons]
    omega
  | @moved s t c rest turns _ front goes _ ih =>
    have hneeded := needed_bounds s
    have hlength : s.rest.length = rest.length + 1 := by rw [front, List.length_cons]
    rw [List.length_cons]
    rcases (move_of_turn front goes).needed with ⟨hrest, -, hless⟩ | ⟨hrest, -⟩
    · rw [hrest] at ih
      omega
    · omega

/-- The turns on one character: none on those that have been taken, as many on the one in front as
its mode may need, and three on the others. -/
theorem Takes.count_le (h : Takes s turns outcome) (position : Nat) :
    (turns.map Scan.position).count position ≤
      if position < s.position then 0 else if position = s.position then s.needed else 3 := by
  induction h with
  | ended _ => exact Nat.zero_le _
  | @refused s _ _ _ _ _ =>
    have hneeded := needed_bounds s
    rw [List.map_singleton, List.count_singleton]
    grind
  | @moved s t c rest turns _ front goes _ ih =>
    have hneeded := needed_bounds s
    have hneeded' := needed_bounds t
    rw [List.map_cons, List.count_cons]
    rcases (move_of_turn front goes).needed with ⟨-, hposition, hless⟩ | ⟨-, hposition⟩
    · rw [hposition] at ih
      grind
    · rw [hposition] at ih
      grind

end Counting

/-! ## What holds throughout -/

/-- What the reader takes for granted in a state.  Its position tells the character in front; a bare
name has begun where the text ends; and among dots nothing else is pending, so that one more makes
their size in bytes their number, and no more of them than characters up to the one in front. -/
structure Orderly (cs : List Char) (s : Scan) : Prop where
  front : s.rest = cs.drop s.position
  bare : s.mode = .bare → s.rest = [] → s.pending ≠ []
  dots : s.mode = .dots → ∀ c ∈ s.pending, c = '.'
  size : s.mode = .dots →
    (String.ofList (s.pending ++ ['.'])).utf8ByteSize = (s.pending ++ ['.']).length
  room : s.mode = .dots → (s.pending ++ ['.']).length ≤ s.position + 1

/-- What the reader knows keeps its states in order. -/
theorem Reads.orderly {lead text taken : List Char} {s : Scan}
    (h : Reads lead.length text taken s) : Orderly (lead ++ text) s := by
  obtain ⟨rest, position, mode, pending, found⟩ := s
  have hposition : position = (lead ++ taken).length := by
    rw [List.length_append]
    exact h.position_eq
  have hpending (hmode : mode = .dots) : pending = ['.'] ∨ pending = ['.', '.'] ∨ pending = [] := by
    subst hmode
    obtain ⟨before, -, -, hone | htwo | ⟨hnone, -⟩⟩ := h.knows
    · exact .inl hone
    · exact .inr (.inl htwo)
    · exact .inr (.inr hnone)
  refine ⟨?_, ?_, ?_, ?_, ?_⟩
  · dsimp only
    rw [hposition, ← h.split, ← List.append_assoc, List.drop_left]
  · intro hmode hend
    dsimp only at hmode
    subst hmode
    obtain ⟨before, -, -, hname | ⟨-, hmore⟩⟩ := h.knows
    · intro hnone
      cases hname with
      | mk _ _ => cases hnone
    · exact absurd hend hmore
  · intro hmode
    rcases hpending hmode with h | h | h <;> simp [h]
  · intro hmode
    rcases hpending hmode with rfl | rfl | rfl <;> rfl
  · intro hmode
    dsimp only at hmode
    subst hmode
    obtain ⟨before, (htaken : taken = before ++ pending), -⟩ := h.knows
    dsimp only
    rw [hposition, htaken, List.length_append, List.length_append, List.length_append,
      List.length_singleton]
    omega

end Scan

/-! ## Reading a text -/

/-- The state in which the reader of a text starts: behind the slash of an absolute path. -/
def opening : List Char → Scan
  | '/' :: rest => .begin 1 rest
  | cs => .begin 0 cs

theorem exists_opening (cs : List Char) :
    ∃ lead body, cs = lead ++ body ∧ opening cs = .begin lead.length body := by
  unfold opening
  split
  · rename_i rest
    exact ⟨['/'], rest, rfl, rfl⟩
  · exact ⟨[], cs, rfl, rfl⟩

theorem readChars_eq_run (cs : List Char) :
    readChars cs = ((opening cs).run.bind Scan.finish).map
      fun es => ⟨es, decide (cs.head? = some '/')⟩ := by
  unfold readChars
  split
  · rfl
  · rename_i hslash
    have hopening : opening cs = .begin 0 cs := by
      unfold opening
      split
      · exact absurd rfl (hslash _)
      · rfl
    have hhead : cs.head? ≠ some '/' := by
      intro h
      obtain ⟨rest, rfl⟩ := List.head?_eq_some_iff.mp h
      exact hslash rest rfl
    rw [hopening, decide_eq_false hhead]
    rfl

/-- How a run of the reader on a text goes: at most three times as many turns as there are characters,
at most three turns on any one of them, and an orderly state at each turn and at the end.  The
position of too many dots is that of the first of them, the last of them being in front. -/
structure Bounded (cs : List Char) (turns : List Scan) (outcome : Except ReadError Scan) :
    Prop where
  total : turns.length ≤ 3 * cs.length
  each : ∀ position, (turns.map Scan.position).count position ≤ 3
  orderly : ∀ s ∈ turns, s.Orderly cs
  ended : ∀ s, outcome = .ok s → s.Orderly cs ∧ s.rest = []
  invalid : ∀ position element, outcome = .error (.invalidElement position element) →
    ∃ s ∈ turns, position + element.utf8ByteSize = s.position + 1

theorem bounded_of_takes {cs : List Char} {turns : List Scan} {outcome : Except ReadError Scan}
    (h : Scan.Takes (opening cs) turns outcome) : Bounded cs turns outcome := by
  obtain ⟨lead, body, rfl, hopening⟩ := exists_opening cs
  rw [hopening] at h
  obtain ⟨hturns, hend⟩ := h.invariant Scan.Move.reads ⟨[], Scan.reads_begin lead.length body⟩
  have horderly (s : Scan) (hs : s ∈ turns) : s.Orderly (lead ++ body) :=
    (hturns s hs).elim fun _ hreads => hreads.orderly
  constructor
  case total =>
    have hlength : turns.length ≤ 3 * body.length - (3 - 3) := h.length_le
    rw [List.length_append]
    omega
  case each =>
    intro position
    have hneeded := Scan.needed_bounds (Scan.begin lead.length body)
    refine Nat.le_trans (h.count_le position) ?_
    grind
  case orderly => exact horderly
  case ended =>
    intro s hs
    obtain ⟨⟨_, hreads⟩, hrest⟩ := hend s hs
    exact ⟨hreads.orderly, hrest⟩
  case invalid =>
    intro position element herror
    obtain ⟨s, hs, hrefusal⟩ := h.exists_refusal herror
    refine ⟨s, hs, ?_⟩
    have hs := horderly s hs
    cases hrefusal with
    | thirdDot _ =>
      have hsize := hs.size rfl
      have hroom := hs.room rfl
      dsimp only at hsize hroom ⊢
      omega

/-- **Reading a path ends within three turns for each character.**  The reader of a text takes turns
in one way only, and at most three times as many as the text has characters, whether it comes to the
end or to an error; at most three of them are on the same character.  In all its states a bare name
that is pending at the end of the text has begun, only dots are pending among dots, and as many
characters have been taken, so that nothing is cut off where the position of the first of too many
dots is worked out by a subtraction. -/
theorem read_ends_within_three_turns (text : String) :
    read text = ((opening text.toList).run.bind Scan.finish).map
        (fun es => ⟨es, decide (text.toList.head? = some '/')⟩) ∧
      ∃ turns, Scan.Takes (opening text.toList) turns (opening text.toList).run ∧
        (∀ turns' outcome, Scan.Takes (opening text.toList) turns' outcome → turns' = turns) ∧
        Bounded text.toList turns (opening text.toList).run := by
  obtain ⟨turns, hturns⟩ := Scan.exists_takes (opening text.toList)
  exact ⟨readChars_eq_run text.toList, turns, hturns, fun _ _ h => (hturns.unique h).1,
    bounded_of_takes hturns⟩

/-- The first of three dots needs three turns; the last one is refused, and the error tells where
the first one stands. -/
theorem read_ends_within_three_turns_dots :
    let text : List Char := ['.', '.', '.']
    let turns : List Scan :=
      [⟨text, 0, .start, [], []⟩, ⟨text, 0, .bare, [], []⟩, ⟨text, 0, .dots, [], []⟩,
        ⟨['.', '.'], 1, .dots, ['.'], []⟩, ⟨['.'], 2, .dots, ['.', '.'], []⟩]
    Scan.Takes (opening text) turns (.error (.invalidElement 0 "...")) ∧
      Bounded text turns (.error (.invalidElement 0 "...")) ∧
      (turns.map Scan.position).count 0 = 3 := by
  intro text turns
  have htakes : Scan.Takes (opening text) turns (.error (.invalidElement 0 "...")) :=
    .moved rfl rfl (.moved rfl rfl (.moved rfl rfl (.moved rfl rfl (.refused rfl rfl))))
  obtain ⟨-, others, hothers, hunique, hbounded⟩ := read_ends_within_three_turns "..."
  have hturns : turns = others := hunique _ _ htakes
  have hrun : (opening text).run = .error (.invalidElement 0 "...") := (htakes.unique hothers).2
  refine ⟨htakes, ?_, rfl⟩
  rw [hturns, ← hrun]
  exact hbounded

end Polydoc.Path
