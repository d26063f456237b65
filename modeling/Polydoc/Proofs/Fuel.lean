/-
  Proofs/Fuel.lean --- readers that are given an amount of fuel: when it suffices, and what they
  leave of their text.

  A reader that is called with less fuel inside itself stops when there is none.  It never comes to
  that, whatever the text, if each call has left less of the text to the calls in it: so the amount
  that the text calls for is a bound of what is left, and beyond it nothing depends on the fuel.
-/
set_option autoImplicit false

namespace Polydoc

/-! ## Fuel -/

/-- From an amount of fuel on, more of it changes nothing. -/
def Suffices {α : Type} (enough : Nat) (run : Nat → α) : Prop :=
  ∀ fuel, enough ≤ fuel → run fuel = run enough

theorem suffices_of_succ {α : Type} {enough : Nat} {run : Nat → α}
    (h : ∀ fuel, enough ≤ fuel → run (fuel + 1) = run fuel) : Suffices enough run := by
  intro fuel hfuel
  induction hfuel with
  | refl => rfl
  | step hle ih => rw [h _ hle, ih]

/-- Any two amounts that suffice give the same answer. -/
theorem Suffices.eq {α : Type} {enough fuel other : Nat} {run : Nat → α} (h : Suffices enough run)
    (hfuel : enough ≤ fuel) (hother : enough ≤ other) : run fuel = run other := by
  rw [h fuel hfuel, h other hother]

/-! ## What is left -/

section Within

variable {α β σ : Type} {size : σ → Nat} {n m : Nat}

/-- What a reader leaves, if it succeeds, is smaller than `n`. -/
def Within (size : σ → Nat) (n : Nat) (r : Option (α × σ)) : Prop :=
  ∀ x rest, r = some (x, rest) → size rest < n

theorem within_none : Within size n (none : Option (α × σ)) := by
  intro x rest h
  cases h

theorem within_some {x : α} {rest : σ} (h : size rest < n) : Within size n (some (x, rest)) := by
  intro _ _ heq
  cases heq
  exact h

/-- What is made of something else does not change what is left. -/
theorem within_made {γ : Type} {r : Option γ} {f : γ → α} {rest : σ} (h : size rest < n) :
    Within size n (r.map fun a => (f a, rest)) := by
  intro _ _ heq
  obtain ⟨a, _, hfound⟩ := Option.map_eq_some_iff.1 heq
  cases hfound
  exact h

theorem Within.mono {r : Option (α × σ)} (h : Within size n r) (hle : n ≤ m) :
    Within size m r :=
  fun x rest heq => Nat.lt_of_lt_of_le (h x rest heq) hle

/-- A change of what has been read leaves what is left alone. -/
theorem Within.map {r : Option (α × σ)} {f : α × σ → β × σ} (h : Within size n r)
    (hf : ∀ x rest, (f (x, rest)).2 = rest) : Within size n (r.map f) := by
  intro y rest heq
  obtain ⟨⟨x, left⟩, hr, hleft⟩ := Option.map_eq_some_iff.1 heq
  have hrest : left = rest := by rw [← hf x left, hleft]
  rw [← hrest]
  exact h x left hr

/-- The second of two readers decides, whatever the first one has found. -/
theorem Within.bind {γ : Type} {r : Option γ} {f : γ → Option (α × σ)}
    (h : ∀ a, r = some a → Within size n (f a)) : Within size n (r.bind f) := by
  intro x rest heq
  obtain ⟨a, hr, hleft⟩ := Option.bind_eq_some_iff.1 heq
  exact h a hr x rest hleft

end Within

/-- A reader of text leaves less than `n` characters. -/
abbrev Leaves {α : Type} (n : Nat) (r : Option (α × List Char)) : Prop := Within List.length n r

/-- A text is shorter without the characters that it starts with, if there are any. -/
theorem length_dropWhile_lt {α : Type} {p : α → Bool} {xs : List α} (h : xs.takeWhile p ≠ []) :
    (xs.dropWhile p).length < xs.length := by
  have hparts := congrArg List.length (List.takeWhile_append_dropWhile (p := p) (l := xs))
  have hpos : 0 < (xs.takeWhile p).length := List.length_pos_iff.2 h
  rw [List.length_append] at hparts
  omega

end Polydoc
