/-
  Proofs/Path/Rendering.lean --- the written form of a path is read as that path.

  Only a root marker, which has no written form, gets lost.  The operations on paths bring none in,
  so whatever they produce without one being pushed is read back as it was.
-/
import Polydoc.Proofs.Path.Reading

set_option autoImplicit false

namespace Polydoc.Path

/-! ## The written form is derived by the grammar -/

theorem quotedText_quoteChar (c : Char) : QuotedText (Element.quoteChar c) [c] := by
  unfold Element.quoteChar
  split
  · exact .escaped .nil
  · rename_i h
    exact .plain (fun hq => h (.inl hq)) (fun hb => h (.inr hb)) .nil

theorem quotedText_flatMap (cs : List Char) :
    QuotedText (cs.flatMap Element.quoteChar) cs := by
  induction cs with
  | nil => exact .nil
  | cons c cs ih =>
    rw [List.flatMap_cons]
    exact (quotedText_quoteChar c).append ih

theorem segment_chars {e : Element} (h : e ≠ .root) : Segment e.chars e := by
  cases e with
  | name text =>
    have hq := Segment.quoted (quotedText_flatMap text.toList)
    rwa [String.ofList_toList] at hq
  | self => exact .self
  | parent => exact .parent
  | root => exact absurd rfl h

theorem segments_joinElements {e : Element} {es : List Element} (h : Element.root ∉ e :: es) :
    Segments (joinElements (e :: es)) (e :: es) := by
  induction es generalizing e with
  | nil => exact .one (segment_chars fun he => h (by simp [he]))
  | cons d ds ih =>
    rw [List.mem_cons, not_or] at h
    exact .more (segment_chars fun he => h.1 he.symm) (ih h.2)

theorem body_joinElements {es : List Element} (h : Element.root ∉ es) :
    Body (joinElements es) es := by
  cases es with
  | nil => exact .empty
  | cons e es => exact .segments (segments_joinElements h)

theorem written_chars {p : Path} (h : Element.root ∉ p.elements) : Written p.chars p := by
  obtain ⟨elements, absolute⟩ := p
  cases absolute with
  | true => exact .absolute (body_joinElements h)
  | false => exact .relative (body_joinElements h)

/-- A path is read back from its written form unless it holds a root marker. -/
theorem read_render_iff {p : Path} : read p.render = .ok p ↔ Element.root ∉ p.elements := by
  rw [read_eq_ok_iff, render, String.toList_ofList]
  exact ⟨Written.root_notMem, written_chars⟩

/-! ## Root markers come in by being pushed alone -/

/-- The paths that the operations on paths produce when only elements of a kind are pushed. -/
inductive Obtained (pushable : Element → Prop) : Path → Prop where
  | read {text : String} {p : Path} (h : Path.read text = .ok p) : Obtained pushable p
  | ofNames (names : List String) (absolute : Bool) : Obtained pushable (ofNames names absolute)
  | top : Obtained pushable top
  | here : Obtained pushable here
  | push {p : Path} {e : Element} (hp : Obtained pushable p) (he : pushable e) :
      Obtained pushable (p.push e)
  | pop {p q : Path} {e : Element} (hp : Obtained pushable p) (h : p.pop = .ok (e, q)) :
      Obtained pushable q
  | deleteRange {p q : Path} {index count : Nat} (hp : Obtained pushable p)
      (h : p.deleteRange index count = .ok q) : Obtained pushable q
  | join {p q r : Path} (hp : Obtained pushable p) (hq : Obtained pushable q)
      (h : p.join q = .ok r) : Obtained pushable r
  | normalize {p q : Path} (hp : Obtained pushable p) (h : p.normalize = .ok q) :
      Obtained pushable q
  | anchor {p q r : Path} (hp : Obtained pushable p) (hr : Obtained pushable r)
      (h : p.anchor r = .ok q) : Obtained pushable q

theorem root_notMem_of_resolve {kept es found : List Element} {index : Nat}
    (hk : Element.root ∉ kept) (h : resolve kept index es = .ok found) :
    Element.root ∉ found := by
  fun_induction resolve kept index es with
  | case1 kept =>
    cases h
    simpa using hk
  | case2 kept index text rest ih => exact ih (by simpa using hk) h
  | case3 kept index rest ih => exact ih hk h
  | case4 => cases h
  | case5 index rest inner outer ih => exact ih (fun hm => hk (List.mem_cons_of_mem _ hm)) h
  | case6 => cases h

theorem root_notMem_of_normalize {p q : Path} (h : p.normalize = .ok q) :
    Element.root ∉ q.elements := by
  unfold normalize at h
  split at h
  · cases hres : resolve [] 0 p.elements with
    | error e =>
      rw [hres] at h
      cases h
    | ok es =>
      rw [hres] at h
      cases h
      exact root_notMem_of_resolve (by simp) hres
  · cases h

theorem Obtained.root_notMem {p : Path} (h : Obtained (· ≠ Element.root) p) :
    Element.root ∉ p.elements := by
  induction h with
  | read h => exact (read_eq_ok_iff.mp h).root_notMem
  | ofNames names absolute => simp [Path.ofNames]
  | top => simp [Path.top]
  | here => simp [Path.here]
  | push _ he ih => simpa [Path.push, ih] using he.symm
  | pop _ h ih =>
    unfold Path.pop at h
    split at h <;> cases h
    exact fun hm => ih (List.dropLast_subset _ hm)
  | deleteRange _ h ih =>
    unfold Path.deleteRange at h
    split at h <;> cases h
    intro hm
    rcases List.mem_append.mp hm with hm | hm
    · exact ih (List.mem_of_mem_take hm)
    · exact ih (List.mem_of_mem_drop hm)
  | join _ _ h ihp ihq =>
    unfold Path.join at h
    split at h <;> cases h
    simp [ihp, ihq]
  | normalize _ h _ => exact root_notMem_of_normalize h
  | anchor _ _ h ihp _ =>
    unfold Path.anchor at h
    split at h
    · cases h
      exact ihp
    · split at h
      · exact root_notMem_of_normalize h
      · cases h

/-! ## Writing and reading are inverse -/

/-- **Writing and reading are inverse.**  A path is read back from its written form exactly if it
holds no root marker, and so is every path that was obtained without one being pushed.  Paths
without root markers have different written forms, and the written form of what was read is
written again as it is. -/
theorem read_inverts_render :
    (∀ p : Path, read p.render = .ok p ↔ Element.root ∉ p.elements) ∧
      (∀ p : Path, Obtained (· ≠ Element.root) p → read p.render = .ok p) ∧
      (∀ p q : Path, Element.root ∉ p.elements → Element.root ∉ q.elements →
        p.render = q.render → p = q) ∧
      ∀ (text : String) (p : Path), read text = .ok p →
        ∃ q, read p.render = .ok q ∧ q.render = p.render := by
  refine ⟨fun p => read_render_iff, fun p hp => read_render_iff.mpr hp.root_notMem, ?_, ?_⟩
  · intro p q hp hq hpq
    have hreadp : read p.render = .ok p := read_render_iff.mpr hp
    have hreadq : read q.render = .ok q := read_render_iff.mpr hq
    rw [hpq, hreadq] at hreadp
    exact (Except.ok.inj hreadp).symm
  · intro text p h
    have hp : Element.root ∉ p.elements := (read_eq_ok_iff.mp h).root_notMem
    exact ⟨p, read_render_iff.mpr hp, rfl⟩

example : read (render ⟨[.name "", .name "a\"\\/", .parent], false⟩) =
    .ok ⟨[.name "", .name "a\"\\/", .parent], false⟩ := by cbv

end Polydoc.Path
