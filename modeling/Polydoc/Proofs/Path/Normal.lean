/-
  Proofs/Path/Normal.lean --- normal paths: absolute ones of names alone.

  Normalizing gives a normal path and leaves one as it is, so anchoring a path first and normalizing
  what comes out is the same as normalizing its elements behind those of the reference.  A walk along
  a normal path can miss a value on the way, but it never meets an element that should have been
  normalized away.
-/
import Polydoc.Navigation

set_option autoImplicit false

namespace Polydoc

namespace Path

/-- An absolute path of names alone. -/
structure Normal (p : Path) : Prop where
  absolute : p.absolute = true
  names : p.isNormalized = true

/-- The path as it is seen from the root when it starts at `reference`: behind the elements of the
reference, unless it is absolute. -/
def after (p reference : Path) : Path :=
  if p.absolute then p else ⟨reference.elements ++ p.elements, true⟩

/-! ## Resolving -/

/-- Names are kept as they are. -/
theorem resolve_names {es : List Element} (h : es.all Element.isName = true) :
    ∀ (kept : List Element) (index : Nat), resolve kept index es = .ok (kept.reverse ++ es) := by
  induction es with
  | nil =>
    intro kept index
    rw [resolve, List.append_nil]
  | cons e rest ih =>
    intro kept index
    rw [List.all_cons, Bool.and_eq_true] at h
    obtain ⟨hname, hrest⟩ := h
    cases e with
    | name text =>
      rw [resolve, ih hrest, List.reverse_cons, List.append_assoc]
      rfl
    | _ => cases hname

/-- Nothing but names is kept. -/
theorem isName_of_resolve {kept es found : List Element} {index : Nat}
    (hk : kept.all Element.isName = true) (h : resolve kept index es = .ok found) :
    found.all Element.isName = true := by
  fun_induction resolve kept index es with
  | case1 kept index =>
    cases h
    rw [List.all_reverse]
    exact hk
  | case2 kept index text rest ih =>
    exact ih (by rw [List.all_cons, hk]; rfl) h
  | case3 kept index rest ih => exact ih hk h
  | case4 index rest => cases h
  | case5 index rest e outer ih =>
    rw [List.all_cons, Bool.and_eq_true] at hk
    exact ih hk.2 h
  | case6 kept index rest => cases h

/-! ## Normalizing -/

section Normalizing

variable {p q reference : Path}

theorem normalize_absolute (es : List Element) :
    normalize ⟨es, true⟩ = (resolve [] 0 es).map fun found => ⟨found, true⟩ := by
  rw [normalize, if_pos rfl]

/-- A normal form holds what a pass over the elements finds. -/
theorem resolve_of_normalize (h : p.normalize = .ok q) :
    q.absolute = true ∧ resolve [] 0 p.elements = .ok q.elements := by
  obtain ⟨elements, absolute⟩ := p
  cases absolute with
  | false => cases h
  | true =>
    rw [normalize_absolute] at h
    cases hr : resolve [] 0 elements with
    | error e =>
      rw [hr] at h
      cases h
    | ok found =>
      rw [hr] at h
      cases h
      exact ⟨rfl, rfl⟩

theorem normal_of_normalize (h : p.normalize = .ok q) : q.Normal := by
  obtain ⟨habsolute, hresolve⟩ := resolve_of_normalize h
  exact ⟨habsolute, isName_of_resolve rfl hresolve⟩

/-- A normal path is left as it is. -/
theorem Normal.normalize_eq (h : p.Normal) : p.normalize = .ok p := by
  obtain ⟨elements, absolute⟩ := p
  obtain ⟨rfl, hnames⟩ := h
  have hres := resolve_names hnames [] 0
  rw [normalize, if_pos rfl, hres]
  rfl

theorem normalize_bind_normalize : p.normalize.bind normalize = p.normalize := by
  cases h : p.normalize with
  | error e => rfl
  | ok q => exact (normal_of_normalize h).normalize_eq

/-- Anchoring and then normalizing is normalizing the elements behind those of the reference. -/
theorem anchor_bind_normalize (h : reference.absolute = true) :
    (p.anchor reference).bind normalize = (p.after reference).normalize := by
  by_cases hp : p.absolute = true
  · rw [anchor, after, if_pos hp, if_pos hp]
    rfl
  · rw [anchor, after, if_neg hp, if_neg hp, if_pos h]
    exact normalize_bind_normalize

end Normalizing

end Path

/-! ## Walking along a normal path -/

namespace Node

open Navigation

theorem enter_ne_unnormalizedPath {n : Node} {name : String} {obstacle : Obstacle}
    (h : n.enter name = .error obstacle) : obstacle ≠ .unnormalizedPath := by
  rintro rfl
  unfold enter at h
  split at h
  case h_2 => split at h <;> cases h
  case h_3 => split at h <;> cases h
  all_goals cases h

theorem walk_names {es : List Element} (h : es.all Element.isName = true) :
    ∀ {n : Node} {index : Nat} {stop : Stop}, n.walk index es = .error stop →
      stop.obstacle ≠ .unnormalizedPath := by
  induction es with
  | nil =>
    intro n index stop hw
    cases hw
  | cons e rest ih =>
    intro n index stop hw
    rw [List.all_cons, Bool.and_eq_true] at h
    obtain ⟨hname, hrest⟩ := h
    cases e with
    | name text =>
      rw [walk] at hw
      split at hw
      · exact ih hrest hw
      · rename_i obstacle henter
        cases hw
        exact enter_ne_unnormalizedPath henter
    | _ => cases hname

/-- Reading at a normal path never fails for the form of the path. -/
theorem at?_normal {n : Node} {p : Path} (h : p.Normal) {e : Error} (he : n.at? p = .error e) :
    e.obstacle ≠ .unnormalizedPath := by
  unfold at? at he
  cases hw : n.walk 0 p.elements with
  | ok found =>
    rw [hw] at he
    cases he
  | error stop =>
    rw [hw] at he
    cases he
    exact walk_names h.names hw

end Node

end Polydoc
