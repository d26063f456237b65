/-
  Proofs/Path/Deleting.lean --- normalizing a path is deleting `.` and `..` from it, in any order.

  A `.` is deleted alone, a `..` together with the name just before it.  Deletions come to an end,
  and to the same one whichever of them are made first: the path that normalizing finds in one pass.
  A scan from the left halts at a root marker, and at a `..` before which the names are used up.
  Normalizing fails at the first element where it halts, and nowhere else.
-/
import Mathlib.Logic.Relation
import Polydoc.Proofs.Path.Normal

set_option autoImplicit false

namespace Polydoc.Path

/-! ## Deletions -/

/-- One deletion: of a `.`, or of a `..` and the name just before it. -/
inductive Deletion : List Element → List Element → Prop where
  | self (before after : List Element) : Deletion (before ++ .self :: after) (before ++ after)
  | parent (before : List Element) (text : String) (after : List Element) :
      Deletion (before ++ .name text :: .parent :: after) (before ++ after)

/-- Deletions one after another, or none. -/
abbrev Deletions : List Element → List Element → Prop := Relation.ReflTransGen Deletion

section Deleting

variable {es fewer found : List Element}

theorem Deletion.length_lt (h : Deletion es fewer) : fewer.length < es.length := by
  cases h with
  | self before after =>
    rw [List.length_append, List.length_append, List.length_cons]
    omega
  | parent before text after =>
    rw [List.length_append, List.length_append, List.length_cons, List.length_cons]
    omega

/-- In whatever order they are made, deletions come to an end. -/
theorem acc_deletion (es : List Element) : Acc (fun fewer es => Deletion es fewer) es :=
  (Subrelation.wf (fun h => h.length_lt) (measure List.length).wf).apply es

/-! ## One pass and the deletions -/

/-- A pass over elements in two parts goes on with the names that the first part leaves. -/
theorem resolve_append (before after : List Element) :
    ∀ (kept : List Element) (index : Nat), resolve kept index (before ++ after) =
      (resolve kept index before).bind fun left =>
        resolve left.reverse (index + before.length) after := by
  induction before with
  | nil =>
    intro kept index
    rw [List.nil_append, resolve, Except.bind, List.reverse_reverse]
    rfl
  | cons e rest ih =>
    intro kept index
    have hlength : index + (e :: rest).length = index + 1 + rest.length := by
      rw [List.length_cons]
      omega
    rw [List.cons_append, hlength]
    cases e with
    | name text => exact ih _ _
    | self => exact ih _ _
    | parent =>
      cases kept with
      | nil => rfl
      | cons _ outer => exact ih _ _
    | root => rfl

/-- Only errors tell where a pass began to count. -/
theorem resolve_index {kept : List Element} {index : Nat} (other : Nat)
    (h : resolve kept index es = .ok found) : resolve kept other es = .ok found := by
  fun_induction resolve kept index es generalizing other with
  | case1 kept index => exact h
  | case2 kept index text rest ih => exact ih (other + 1) h
  | case3 kept index rest ih => exact ih (other + 1) h
  | case4 index rest => cases h
  | case5 index rest e outer ih => exact ih (other + 1) h
  | case6 kept index rest => cases h

/-- A deletion changes nothing about what a pass finds. -/
theorem Deletion.resolve_eq_ok_iff (h : Deletion es fewer) :
    resolve [] 0 es = .ok found ↔ resolve [] 0 fewer = .ok found := by
  cases h with
  | self before after =>
    rw [resolve_append, resolve_append]
    cases resolve [] 0 before with
    | error e => rfl
    | ok left =>
      change resolve left.reverse _ after = _ ↔ resolve left.reverse _ after = _
      exact ⟨resolve_index _, resolve_index _⟩
  | parent before text after =>
    rw [resolve_append, resolve_append]
    cases resolve [] 0 before with
    | error e => rfl
    | ok left =>
      -- the name is put on top of what is left, and taken from there at once
      change resolve left.reverse _ after = _ ↔ resolve left.reverse _ after = _
      exact ⟨resolve_index _, resolve_index _⟩

theorem resolve_of_deletions (h : resolve [] 0 es = .ok found) (hd : Deletions es fewer) :
    resolve [] 0 fewer = .ok found := by
  induction hd with
  | refl => exact h
  | tail _ hstep ih => exact hstep.resolve_eq_ok_iff.mp ih

/-- What a pass finds is left of the elements by deletions, those that the pass comes to first. -/
theorem deletions_of_resolve {kept : List Element} {index : Nat}
    (hkept : kept.all Element.isName = true) (h : resolve kept index es = .ok found) :
    Deletions (kept.reverse ++ es) found := by
  fun_induction resolve kept index es with
  | case1 kept index =>
    cases h
    rw [List.append_nil]
  | case2 kept index text rest ih =>
    have hnames : (Element.name text :: kept).all Element.isName = true := by
      rw [List.all_cons, hkept]
      rfl
    have hrest := ih hnames h
    rwa [List.reverse_cons, List.append_assoc] at hrest
  | case3 kept index rest ih => exact .head (.self kept.reverse rest) (ih hkept h)
  | case4 index rest => cases h
  | case5 index rest e outer ih =>
    rw [List.all_cons, Bool.and_eq_true] at hkept
    cases e with
    | name text =>
      rw [List.reverse_cons, List.append_assoc]
      exact .head (.parent outer.reverse text rest) (ih hkept.2 h)
    | _ => cases hkept.1
  | case6 kept index rest => cases h

end Deleting

/-! ## Where a scan halts -/

/-- Why a scan from the left cannot pass an index: a root marker stands there, or a `..` before
which there are no more names than other `..`. -/
inductive Halts (es : List Element) (index : Nat) : Error → Prop where
  | root (found : es[index]? = some .root) : Halts es index (.unexpectedRoot index)
  | parent (found : es[index]? = some .parent)
      (spent : (es.take index).countP Element.isName ≤ (es.take index).count .parent) :
      Halts es index (.escapesRoot index)

/-- The first index that a scan cannot pass, and why. -/
structure HaltsFirst (es : List Element) (index : Nat) (e : Error) : Prop where
  halts : Halts es index e
  first : ∀ earlier < index, ∀ other, ¬ Halts es earlier other

section Halting

variable {es : List Element} {index : Nat} {e other : Error}

theorem Halts.lt_length (h : Halts es index e) : index < es.length := by
  cases h with
  | root found => exact (List.getElem?_eq_some_iff.mp found).1
  | parent found _ => exact (List.getElem?_eq_some_iff.mp found).1

theorem Halts.unique (h : Halts es index e) (h' : Halts es index other) : e = other := by
  cases h with
  | root found =>
    cases h' with
    | root _ => rfl
    | parent found' _ =>
      rw [found] at found'
      cases found'
  | parent found _ =>
    cases h' with
    | root found' =>
      rw [found] at found'
      cases found'
    | parent _ _ => rfl

theorem HaltsFirst.unique {index' : Nat} (h : HaltsFirst es index e)
    (h' : HaltsFirst es index' other) : e = other := by
  rcases Nat.lt_trichotomy index index' with hlt | rfl | hlt
  · exact absurd h.halts (h'.first index hlt e)
  · exact h.halts.unique h'.halts
  · exact absurd h'.halts (h.first index' hlt other)

/-- At the first of the elements that are left, what stands there decides. -/
theorem halts_at_iff {done rest : List Element} {element : Element} :
    Halts (done ++ element :: rest) done.length e ↔
      (element = .root ∧ e = .unexpectedRoot done.length) ∨
        element = .parent ∧ done.countP Element.isName ≤ done.count .parent ∧
          e = .escapesRoot done.length := by
  have hfound : (done ++ element :: rest)[done.length]? = some element := by simp
  have htake : (done ++ element :: rest).take done.length = done := by simp
  constructor
  · intro h
    cases h with
    | root found =>
      rw [hfound] at found
      exact .inl ⟨Option.some.inj found, rfl⟩
    | parent found spent =>
      rw [hfound] at found
      rw [htake] at spent
      exact .inr ⟨Option.some.inj found, spent, rfl⟩
  · rintro (⟨rfl, rfl⟩ | ⟨rfl, spent, rfl⟩)
    · exact .root hfound
    · exact .parent hfound (htake.symm ▸ spent)

/-- The names that a pass has kept are those that no `..` has used up, so it goes on until the scan
halts.  The elements passed already, where it did not halt, are `done`. -/
theorem resolve_or_halts (rest : List Element) : ∀ done kept : List Element,
    kept.length + done.count .parent = done.countP Element.isName →
      (∀ i < done.length, ∀ e, ¬ Halts (done ++ rest) i e) →
        (∃ index e, HaltsFirst (done ++ rest) index e ∧
            resolve kept done.length rest = .error e) ∨
          (∀ index e, ¬ Halts (done ++ rest) index e) ∧
            ∃ found, resolve kept done.length rest = .ok found := by
  induction rest with
  | nil =>
    intro done kept _ hpassed
    refine .inr ⟨fun i e h => ?_, kept.reverse, rfl⟩
    rw [List.append_nil] at h hpassed
    exact hpassed i h.lt_length e h
  | cons element rest ih =>
    intro done kept hbalance hpassed
    -- one element more is passed, with `kept'` kept behind it
    have hnext (kept' : List Element)
        (hbalance' : kept'.length + (done ++ [element]).count .parent =
          (done ++ [element]).countP Element.isName)
        (hhere : ∀ e, ¬ Halts (done ++ element :: rest) done.length e) :
        (∃ index e, HaltsFirst (done ++ element :: rest) index e ∧
            resolve kept' (done.length + 1) rest = .error e) ∨
          (∀ index e, ¬ Halts (done ++ element :: rest) index e) ∧
            ∃ found, resolve kept' (done.length + 1) rest = .ok found := by
      have hsplit : done ++ element :: rest = done ++ [element] ++ rest := by simp
      have hlength : done.length + 1 = (done ++ [element]).length := by simp
      rw [hsplit] at hpassed hhere ⊢
      rw [hlength]
      refine ih _ kept' hbalance' fun i hi e => ?_
      rcases Nat.lt_or_eq_of_le (Nat.le_of_lt_succ (hlength ▸ hi)) with hlt | rfl
      · exact hpassed i hlt e
      · exact hhere e
    cases element with
    | name text =>
      refine hnext (.name text :: kept) ?_ fun e h => ?_
      · simp [Element.isName]
        omega
      · simp [halts_at_iff] at h
    | self =>
      refine hnext kept ?_ fun e h => ?_
      · simpa [Element.isName] using hbalance
      · simp [halts_at_iff] at h
    | parent =>
      cases kept with
      | nil =>
        have hspent : done.countP Element.isName ≤ done.count .parent := by
          rw [List.length_nil] at hbalance
          omega
        exact .inl ⟨done.length, _, ⟨halts_at_iff.mpr (.inr ⟨rfl, hspent, rfl⟩), hpassed⟩, rfl⟩
      | cons innermost outer =>
        rw [List.length_cons] at hbalance
        refine hnext outer ?_ fun e h => ?_
        · simp [Element.isName]
          omega
        · rcases halts_at_iff.mp h with ⟨heq, _⟩ | ⟨_, hspent, _⟩
          · cases heq
          · omega
    | root => exact .inl ⟨done.length, _, ⟨halts_at_iff.mpr (.inl ⟨rfl, rfl⟩), hpassed⟩, rfl⟩

end Halting

/-! ## Normalizing -/

/-- What normalizing makes of `p`, where it does not fail. -/
structure NormalForm (p q : Path) : Prop where
  /-- names alone are left -/
  normal : q.Normal
  /-- a second time nothing changes -/
  stable : q.normalize = .ok q
  /-- whatever has been deleted, more deletions lead to the normal form -/
  confluent : ∀ es, Deletions p.elements es → Deletions es q.elements
  /-- where nothing more can be deleted the normal form is reached -/
  final : ∀ es, Deletions p.elements es → (∀ fewer, ¬ Deletion es fewer) → es = q.elements
  /-- in no order do deletions go on for ever -/
  ends : Acc (fun fewer es => Deletion es fewer) p.elements

theorem normalForm_of_normalize {p q : Path} (h : p.normalize = .ok q) : NormalForm p q := by
  have hnormal : q.Normal := normal_of_normalize h
  obtain ⟨_, hresolve⟩ := resolve_of_normalize h
  have hconfluent : ∀ es, Deletions p.elements es → Deletions es q.elements :=
    fun es hd => deletions_of_resolve rfl (resolve_of_deletions hresolve hd)
  refine ⟨hnormal, hnormal.normalize_eq, hconfluent, fun es hd hnone => ?_, acc_deletion _⟩
  rcases Relation.ReflTransGen.cases_head (hconfluent es hd) with heq | ⟨fewer, hstep, _⟩
  · exact heq
  · exact absurd hstep (hnone fewer)

/-- **Normalizing deletes every `.` and every `..`, in any order.**  A relative path is refused.  An
absolute one is refused for the first element that a scan from the left cannot pass; if there is
none, names alone are left, the same ones in whichever order they are laid bare.  A path that is
refused stays as it is. -/
theorem normalize_deletes (p : Path) :
    (p.absolute = false → p.normalize = .error .relativeNormalize) ∧
      (p.absolute = true →
        (∀ e, p.normalize = .error e ↔ ∃ index, HaltsFirst p.elements index e) ∧
          ((∀ index e, ¬ Halts p.elements index e) →
            ∃ q, p.normalize = .ok q ∧ NormalForm p q ∧ p.normalizedInPlace = q)) ∧
      ∀ e, p.normalize = .error e → p.normalizedInPlace = p := by
  refine ⟨fun hrelative => ?_, fun habsolute => ?_, fun e he => ?_⟩
  · rw [normalize, if_neg (by simp [hrelative])]
  · have hnormalize : p.normalize = (resolve [] 0 p.elements).map fun es => ⟨es, true⟩ := by
      rw [normalize, if_pos habsolute]
    have hcases := resolve_or_halts p.elements [] [] rfl
      fun i hi => absurd hi (Nat.not_lt_zero i)
    rw [List.nil_append, List.length_nil] at hcases
    rcases hcases with ⟨index, e, hfirst, he⟩ | ⟨hnone, found, hfound⟩
    · rw [he] at hnormalize
      refine ⟨fun other => ⟨fun h => ?_, fun h => ?_⟩, fun hnone => ?_⟩
      · rw [hnormalize] at h
        cases h
        exact ⟨index, hfirst⟩
      · obtain ⟨_, hi⟩ := h
        rw [hnormalize, hi.unique hfirst]
        rfl
      · exact absurd hfirst.halts (hnone index e)
    · rw [hfound] at hnormalize
      refine ⟨fun other => ⟨fun h => ?_, fun h => ?_⟩, fun _ => ?_⟩
      · rw [hnormalize] at h
        cases h
      · obtain ⟨i, hi⟩ := h
        exact absurd hi.halts (hnone i other)
      · exact ⟨_, hnormalize, normalForm_of_normalize hnormalize,
          by rw [normalizedInPlace, hnormalize]; rfl⟩
  · rw [normalizedInPlace, he]

/-- Of `/a/./b/../../c` the last name is left; `/a/../../c` leads above the root with its second
`..`. -/
theorem normalize_deletes_cascade :
    let p : Path := ⟨[.name "a", .self, .name "b", .parent, .parent, .name "c"], true⟩
    let above : Path := ⟨[.name "a", .parent, .parent, .name "c"], true⟩
    (∀ index e, ¬ Halts p.elements index e) ∧ NormalForm p ⟨[.name "c"], true⟩ ∧
      HaltsFirst above.elements 2 (.escapesRoot 2) ∧
      above.normalize = .error (.escapesRoot 2) ∧ above.normalizedInPlace = above := by
  intro p above
  have hnone : ∀ index e, ¬ Halts p.elements index e := by
    intro index e h
    rcases index with _ | _ | _ | _ | _ | _ | index <;> cases h <;>
      simp_all [p, Element.isName, List.countP_cons]
  have hfirst : HaltsFirst above.elements 2 (.escapesRoot 2) := by
    refine ⟨.parent rfl (by decide), fun earlier hlt e h => ?_⟩
    rcases earlier with _ | _ | earlier
    · cases h <;> simp_all [above]
    · cases h <;> simp_all [above, Element.isName]
    · omega
  obtain ⟨q, hq, hform, _⟩ := ((normalize_deletes p).2.1 rfl).2 hnone
  cases hq
  have habove : above.normalize = .error (.escapesRoot 2) :=
    (((normalize_deletes above).2.1 rfl).1 _).mpr ⟨2, hfirst⟩
  exact ⟨hnone, hform, hfirst, habove, (normalize_deletes above).2.2 _ habove⟩

end Polydoc.Path
