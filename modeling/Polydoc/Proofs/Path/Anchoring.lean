/-
  Proofs/Path/Anchoring.lean --- anchoring one path behind another, step by step or at once.

  A pass over elements that have been normalized up to some point goes on as a pass over all of them
  does.  It finds the same path, or it is refused at the same element, which stands further on where
  nothing has been deleted yet.  So relative paths can be anchored one behind the other or joined
  first, and a reference can be normalized first.
-/
import Polydoc.Proofs.Path.Deleting

set_option autoImplicit false

namespace Polydoc.Path

/-- The same refusal, of an element that stands `count` places further on. -/
def Error.later (count : Nat) : Error → Error
  | .escapesRoot index => .escapesRoot (index + count)
  | .unexpectedRoot index => .unexpectedRoot (index + count)
  | other => other

/-! ## Passes that begin to count elsewhere -/

theorem resolve_later (count : Nat) (es : List Element) : ∀ (kept : List Element) (index : Nat),
    resolve kept (index + count) es = (resolve kept index es).mapError (Error.later count) := by
  induction es with
  | nil =>
    intro kept index
    rfl
  | cons e rest ih =>
    intro kept index
    have hnext : index + count + 1 = index + 1 + count := Nat.add_right_comm index count 1
    cases e with
    | name text =>
      rw [resolve, resolve, hnext]
      exact ih _ _
    | self =>
      rw [resolve, resolve, hnext]
      exact ih _ _
    | parent =>
      cases kept with
      | nil => rfl
      | cons _ outer =>
        rw [resolve, resolve, hnext]
        exact ih _ _
    | root => rfl

/-- A pass finds no more elements than it is given. -/
theorem length_le_of_resolve {kept es found : List Element} {index : Nat}
    (h : resolve kept index es = .ok found) : found.length ≤ kept.length + es.length := by
  fun_induction resolve kept index es with
  | case1 kept index =>
    cases h
    rw [List.length_reverse]
    exact Nat.le_add_right _ _
  | case2 kept index text rest ih =>
    have hle := ih h
    rw [List.length_cons] at hle ⊢
    omega
  | case3 kept index rest ih =>
    have hle := ih h
    rw [List.length_cons]
    omega
  | case4 index rest => cases h
  | case5 index rest e outer ih =>
    have hle := ih h
    rw [List.length_cons, List.length_cons]
    omega
  | case6 kept index rest => cases h

/-! ## Elements behind a path -/

section Behind

variable {p q : Path} {e : Error}

/-- Elements behind a path that has a normal form are normalized as they are behind the normal
form; only where they are refused are there more elements before them. -/
theorem normalize_behind (h : p.normalize = .ok q) (more : List Element) :
    normalize ⟨p.elements ++ more, true⟩ =
      (normalize ⟨q.elements ++ more, true⟩).mapError (Error.later (p.length - q.length)) := by
  obtain ⟨_, hresolve⟩ := resolve_of_normalize h
  have hnames : q.elements.all Element.isName = true := (normal_of_normalize h).names
  have hlength : q.elements.length ≤ p.elements.length := by
    have hle := length_le_of_resolve hresolve
    rwa [List.length_nil, Nat.zero_add] at hle
  have hindex : p.elements.length = q.elements.length + (p.length - q.length) := by
    rw [length, length]
    omega
  -- the pass over the names of the normal form keeps them all
  have hnormal : resolve [] 0 (q.elements ++ more) =
      resolve q.elements.reverse q.elements.length more := by
    rw [resolve_append, resolve_names hnames, Nat.zero_add]
    rfl
  have hwhole : resolve [] 0 (p.elements ++ more) =
      (resolve q.elements.reverse q.elements.length more).mapError
        (Error.later (p.length - q.length)) := by
    rw [resolve_append, hresolve, Nat.zero_add, hindex, ← resolve_later]
    rfl
  rw [normalize_absolute, normalize_absolute, hwhole, hnormal]
  cases resolve q.elements.reverse q.elements.length more with
  | ok found => rfl
  | error e => rfl

/-- A path that is refused is refused with whatever stands behind it. -/
theorem normalize_behind_error (habsolute : p.absolute = true) (h : p.normalize = .error e)
    (more : List Element) : normalize ⟨p.elements ++ more, true⟩ = .error e := by
  obtain ⟨elements, absolute⟩ := p
  cases habsolute
  rw [normalize_absolute] at h
  rw [normalize_absolute, resolve_append]
  cases hr : resolve [] 0 elements with
  | error other =>
    rw [hr] at h
    cases h
    rfl
  | ok found =>
    rw [hr] at h
    cases h

theorem anchor_relative {reference : Path} (hp : p.absolute = false)
    (hreference : reference.absolute = true) :
    p.anchor reference = normalize ⟨reference.elements ++ p.elements, true⟩ := by
  rw [anchor, if_neg (by simp [hp]), if_pos hreference]

theorem join_relative (r : Path) (hp : p.absolute = false) :
    r.join p = .ok ⟨r.elements ++ p.elements, r.absolute⟩ := by
  rw [join, if_neg (by simp [hp])]

end Behind

/-! ## Anchoring -/

/-- **Anchoring composes.**  To anchor a relative path at an absolute one is to join the two and
normalize.  Where that gives a path, a second relative path is anchored at it as the two, joined, are
anchored at the reference: the outcome is the same path, or the same refusal, of an element that
stands as many places further on as were deleted before it.  Where it is refused, so are the two,
joined.  And a reference that has a normal form can be normalized first. -/
theorem anchor_composes (r p q : Path) (hr : r.absolute = true) (hp : p.absolute = false)
    (hq : q.absolute = false) :
    p.anchor r = (r.join p).bind normalize ∧
      (∃ both, p.join q = .ok both ∧
        (∀ a, p.anchor r = .ok a → both.anchor r =
          (q.anchor a).mapError (Error.later (r.length + p.length - a.length))) ∧
        ∀ e, p.anchor r = .error e → both.anchor r = .error e) ∧
      ∀ normal, r.normalize = .ok normal →
        p.anchor r = (p.anchor normal).mapError (Error.later (r.length - normal.length)) := by
  have hanchor := anchor_relative hp hr
  have hboth : anchor ⟨p.elements ++ q.elements, p.absolute⟩ r =
      normalize ⟨r.elements ++ p.elements ++ q.elements, true⟩ := by
    rw [List.append_assoc]
    exact anchor_relative hp hr
  refine ⟨?_, ⟨_, join_relative p hq, fun a ha => ?_, fun e he => ?_⟩, fun normal hn => ?_⟩
  · rw [hanchor, join_relative r hp, hr]
    rfl
  · rw [hanchor] at ha
    have hlength : (⟨r.elements ++ p.elements, true⟩ : Path).length = r.length + p.length :=
      List.length_append
    rw [hboth, normalize_behind ha q.elements, hlength,
      anchor_relative hq (normal_of_normalize ha).absolute]
  · rw [hanchor] at he
    rw [hboth]
    exact normalize_behind_error rfl he q.elements
  · rw [hanchor, normalize_behind hn, anchor_relative hp (normal_of_normalize hn).absolute]

/-- From `/stable/./horse`, the path `../barn` leads to `/stable/barn`.  Going on by `../door` or by
`../../..` comes to the same as going both ways at once; the second is refused at its last `..`, three
places further on. -/
theorem anchor_composes_stable :
    let r : Path := ⟨[.name "stable", .self, .name "horse"], true⟩
    let normal : Path := ⟨[.name "stable", .name "horse"], true⟩
    let p : Path := ⟨[.parent, .name "barn"], false⟩
    let door : Path := ⟨[.parent, .name "door"], false⟩
    let above : Path := ⟨[.parent, .parent, .parent], false⟩
    let barn : Path := ⟨[.name "stable", .name "barn"], true⟩
    (r.absolute = true ∧ p.absolute = false ∧ door.absolute = false ∧ above.absolute = false) ∧
      (r.join p).bind normalize = .ok barn ∧
      anchor ⟨p.elements ++ door.elements, false⟩ r = .ok ⟨[.name "stable", .name "door"], true⟩ ∧
      above.anchor barn = .error (.escapesRoot 4) ∧
      anchor ⟨p.elements ++ above.elements, false⟩ r = .error (.escapesRoot 7) ∧
      r.normalize = .ok normal ∧ p.anchor normal = .ok barn := by
  intro r normal p door above barn
  have hbarn : p.anchor r = .ok barn := rfl
  have hnormal : r.normalize = .ok normal := rfl
  obtain ⟨hjoin, ⟨there, hthere, hdoor, _⟩, hstart⟩ := anchor_composes r p door rfl rfl rfl
  obtain ⟨_, ⟨beyond, hbeyond, habove, _⟩, _⟩ := anchor_composes r p above rfl rfl rfl
  cases hthere
  cases hbeyond
  have hanchor : .ok barn = (p.anchor normal).mapError (Error.later 1) :=
    hbarn.symm.trans (hstart normal hnormal)
  refine ⟨⟨rfl, rfl, rfl, rfl⟩, hjoin.symm.trans hbarn, hdoor barn hbarn, rfl, habove barn hbarn,
    hnormal, ?_⟩
  cases hp : p.anchor normal with
  | ok found =>
    rw [hp] at hanchor
    cases hanchor
    rfl
  | error e =>
    rw [hp] at hanchor
    cases hanchor

end Polydoc.Path
