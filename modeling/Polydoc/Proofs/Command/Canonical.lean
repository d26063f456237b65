/-
  Proofs/Command/Canonical.lean --- what the path command prints is its own canonical form.

  A path without a base stays relative and is printed as it was read; every other path is printed
  normalized.  Both are read back from what is printed, so printing them again changes nothing, and
  two absolute paths are printed alike exactly if they lead along the same names.
-/
import Mathlib
import Polydoc.Command.Run
import Polydoc.Proofs.Path.Normal
import Polydoc.Proofs.Path.Rendering
import Polydoc.Proofs.Results

set_option autoImplicit false

namespace Polydoc.Command

/-! ## Paths that have a canonical form -/

/-- The path that a text has as its canonical form, where a base is given or not. -/
inductive HasCanonical (text : String) : Option String → Path → Prop where
  /-- a relative path, if it is not to be anchored -/
  | relative {p : Path} (read : Path.read text = .ok p) (stays : p.absolute = false) :
      HasCanonical text none p
  /-- the normal form of an absolute path; a base is read and not used -/
  | absolute {base : Option String} {p q : Path} (read : Path.read text = .ok p)
      (starts : p.absolute = true) (readable : ∀ t ∈ base, ∃ r, Path.read t = .ok r)
      (normal : p.normalize = .ok q) : HasCanonical text base q
  /-- the normal form of a relative path behind an absolute base -/
  | anchored {base : String} {p r q : Path} (read : Path.read text = .ok p)
      (stays : p.absolute = false) (readBase : Path.read base = .ok r) (starts : r.absolute = true)
      (normal : Path.normalize ⟨r.elements ++ p.elements, true⟩ = .ok q) :
      HasCanonical text (some base) q

section Canonical

variable {text : String} {base : Option String} {p q : Path}

/-- The last step normalizes an absolute path and leaves a relative one. -/
theorem normalized_eq_ok_iff :
    (if p.absolute then p.normalize.mapError Failure.anchor else (return p)) = .ok q ↔
      if p.absolute then p.normalize = .ok q else p = q := by
  split
  · exact mapError_eq_ok_iff
  · exact ⟨Except.ok.inj, congrArg Except.ok⟩

/-- Anchoring and normalizing give the normal form of what stands behind the reference. -/
theorem anchor_normalize_iff {r : Path} (hp : p.absolute = false) :
    (∃ a, p.anchor r = .ok a ∧ if a.absolute then a.normalize = .ok q else a = q) ↔
      r.absolute = true ∧ Path.normalize ⟨r.elements ++ p.elements, true⟩ = .ok q := by
  cases hr : r.absolute with
  | false =>
    have hrefused : p.anchor r = .error .relativeReference := by
      rw [Path.anchor, if_neg (by simp [hp]), if_neg (by simp [hr])]
    rw [hrefused]
    constructor
    · rintro ⟨a, ha, -⟩
      cases ha
    · rintro ⟨hr, -⟩
      cases hr
  | true =>
    have hanchor : p.anchor r = Path.normalize ⟨r.elements ++ p.elements, true⟩ := by
      rw [Path.anchor, if_neg (by simp [hp]), if_pos hr]
    rw [hanchor]
    constructor
    · rintro ⟨a, ha, hq⟩
      have hnormal := Path.normal_of_normalize ha
      rw [if_pos hnormal.absolute, hnormal.normalize_eq] at hq
      cases hq
      exact ⟨rfl, ha⟩
    · rintro ⟨-, hq⟩
      have hnormal := Path.normal_of_normalize hq
      exact ⟨q, hq, by rw [if_pos hnormal.absolute]; exact hnormal.normalize_eq⟩

theorem canonical_eq_ok_iff : canonical text base = .ok q ↔ HasCanonical text base q := by
  unfold canonical
  cases base with
  | none =>
    simp only [bind_eq_ok_iff, mapError_eq_ok_iff, pure_bind, normalized_eq_ok_iff]
    constructor
    · rintro ⟨p, hread, hq⟩
      cases hp : p.absolute with
      | true =>
        rw [if_pos hp] at hq
        exact .absolute hread hp (fun t ht => by cases ht) hq
      | false =>
        rw [if_neg (by simp [hp])] at hq
        exact .relative (hq ▸ hread) (hq ▸ hp)
    · rintro (⟨hread, hp⟩ | ⟨hread, hp, -, hq⟩)
      · exact ⟨q, hread, by rw [if_neg (by simp [hp])]⟩
      · exact ⟨_, hread, by rw [if_pos hp]; exact hq⟩
  | some base =>
    simp only [bind_eq_ok_iff, mapError_eq_ok_iff, normalized_eq_ok_iff]
    constructor
    · rintro ⟨p, hread, r, hbase, a, ha, hq⟩
      cases hp : p.absolute with
      | true =>
        rw [Path.anchor, if_pos hp] at ha
        cases ha
        rw [if_pos hp] at hq
        exact .absolute hread hp (fun t ht => by cases ht; exact ⟨r, hbase⟩) hq
      | false =>
        obtain ⟨hr, hnormal⟩ := (anchor_normalize_iff hp).mp ⟨a, ha, hq⟩
        exact .anchored hread hp hbase hr hnormal
    · rintro (_ | ⟨hread, hp, hreadable, hq⟩ | ⟨hread, hp, hbase, hr, hnormal⟩)
      · obtain ⟨r, hbase⟩ := hreadable base rfl
        have hstays : Path.anchor _ r = .ok _ := if_pos hp
        exact ⟨_, hread, r, hbase, _, hstays, (if_pos hp).mpr hq⟩
      · obtain ⟨a, ha, hq⟩ := (anchor_normalize_iff hp).mpr ⟨hr, hnormal⟩
        exact ⟨_, hread, _, hbase, a, ha, hq⟩

/-! ## Canonical forms are read back and are their own -/

theorem HasCanonical.root_notMem (h : HasCanonical text base q) : Element.root ∉ q.elements := by
  cases h with
  | relative read _ => exact (Path.read_eq_ok_iff.mp read).root_notMem
  | absolute _ _ _ normal => exact Path.root_notMem_of_normalize normal
  | anchored _ _ _ _ normal => exact Path.root_notMem_of_normalize normal

theorem HasCanonical.read_render (h : HasCanonical text base q) : Path.read q.render = .ok q :=
  Path.read_render_iff.mpr h.root_notMem

/-- The written canonical form has itself as its canonical form, with the same base. -/
theorem HasCanonical.again (h : HasCanonical text base q) : HasCanonical q.render base q := by
  have hread := h.read_render
  cases h with
  | relative _ stays => exact .relative hread stays
  | absolute _ _ readable normal =>
    have hq := Path.normal_of_normalize normal
    exact .absolute hread hq.absolute readable hq.normalize_eq
  | anchored _ _ readBase _ normal =>
    have hq := Path.normal_of_normalize normal
    exact .absolute hread hq.absolute (fun t ht => by cases ht; exact ⟨_, readBase⟩)
      hq.normalize_eq

/-- For an absolute path it is the normal form, whatever the base. -/
theorem HasCanonical.normalize_eq (h : HasCanonical text base q) (hread : Path.read text = .ok p)
    (hp : p.absolute = true) : p.normalize = .ok q := by
  cases h with
  | relative read stays =>
    cases hread.symm.trans read
    rw [hp] at stays
    cases stays
  | absolute read _ _ normal =>
    cases hread.symm.trans read
    exact normal
  | anchored read stays _ _ _ =>
    cases hread.symm.trans read
    rw [hp] at stays
    cases stays

/-- The command prints the written canonical form. -/
theorem output_path_iff {s : Surroundings} {out : String} :
    output s (.path text base) = .ok out ↔ ∃ q, HasCanonical text base q ∧ q.render = out := by
  rw [output, map_eq_ok_iff]
  simp only [canonical_eq_ok_iff]

/-- A run that is asked for a path prints it on a line of its own. -/
theorem run_path_iff {s : Surroundings} {arguments : List String} {out : String}
    (asked : ofArguments arguments = .ok (.path text base)) :
    run s arguments = ⟨0, out ++ "\n", none⟩ ↔ output s (.path text base) = .ok out := by
  unfold run
  rw [asked]
  cases hprinted : Command.output s (.path text base) with
  | ok printed =>
    dsimp only
    rw [hprinted, Except.ok.injEq]
    constructor
    · intro h
      exact (String.append_left_inj "\n").mp (congrArg Outcome.output h)
    · rintro rfl
      rfl
  | error failure =>
    dsimp only
    rw [hprinted]
    constructor
    · intro h
      cases congrArg Outcome.failure h
    · intro h
      cases h

end Canonical

/-- Paths without root markers that are written alike are the same. -/
theorem HasCanonical.render_eq_iff {text text' : String} {base base' : Option String} {q q' : Path}
    (h : HasCanonical text base q) (h' : HasCanonical text' base' q') :
    q.render = q'.render ↔ q = q' := by
  constructor
  · intro hrender
    have hread := h.read_render
    rw [hrender, h'.read_render] at hread
    exact (Except.ok.inj hread).symm
  · exact congrArg Path.render

/-- **The path command prints a canonical form.**  If it prints a text for a path and a base, it
prints the same text for that text and the same base, in any surroundings and however it is asked.
For two absolute paths it prints the same text exactly if their normal forms have the same
elements. -/
theorem path_prints_canonical :
    (∀ s text base out, output s (.path text base) = .ok out →
        ∀ s', output s' (.path out base) = .ok out) ∧
      (∀ s arguments text base out, ofArguments arguments = .ok (.path text base) →
        run s arguments = ⟨0, out ++ "\n", none⟩ →
        ∀ s' again, ofArguments again = .ok (.path out base) → run s' again = run s arguments) ∧
      ∀ s text text' base base' out out' p p', Path.read text = .ok p → Path.read text' = .ok p' →
        p.absolute = true → p'.absolute = true → output s (.path text base) = .ok out →
        output s (.path text' base') = .ok out' →
        ∃ q q', p.normalize = .ok q ∧ p'.normalize = .ok q' ∧
          (out = out' ↔ q.elements = q'.elements) := by
  have hagain {s : Surroundings} {text : String} {base : Option String} {out : String}
      (h : output s (.path text base) = .ok out) (s' : Surroundings) :
      output s' (.path out base) = .ok out := by
    obtain ⟨q, hq, rfl⟩ := output_path_iff.mp h
    exact output_path_iff.mpr ⟨q, hq.again, rfl⟩
  refine ⟨fun s text base out h => hagain h, ?_, ?_⟩
  · intro s arguments text base out asked hrun s' again asked'
    rw [hrun, run_path_iff asked']
    exact hagain ((run_path_iff asked).mp hrun) s'
  · intro s text text' base base' out out' p p' hread hread' hp hp' h h'
    obtain ⟨q, hq, rfl⟩ := output_path_iff.mp h
    obtain ⟨q', hq', rfl⟩ := output_path_iff.mp h'
    have hnormal := hq.normalize_eq hread hp
    have hnormal' := hq'.normalize_eq hread' hp'
    have habsolute : q.absolute = q'.absolute := by
      rw [(Path.normal_of_normalize hnormal).absolute, (Path.normal_of_normalize hnormal').absolute]
    refine ⟨q, q', hnormal, hnormal',
      (hq.render_eq_iff hq').trans ⟨congrArg _, fun helements => ?_⟩⟩
    cases q
    cases q'
    cases habsolute
    cases helements
    rfl

/-- A relative path is anchored and quoted, and printing what was printed changes nothing; a longer
way to the same door is printed alike. -/
theorem path_prints_canonical_door :
    let s : Surroundings := ⟨fun _ => .error "", none, none⟩
    let door := "/\"barn\"/\"door\""
    let arguments := ["path", "--base", "/stable", "../barn/./door"]
    let again := ["path", door, "-b=/stable"]
    let way : Path := ⟨[.name "barn", .name "yard", .parent, .name "door"], true⟩
    let straight : Path := ⟨[.name "barn", .name "door"], true⟩
    ofArguments arguments = .ok (.path "../barn/./door" (some "/stable")) ∧
      ofArguments again = .ok (.path door (some "/stable")) ∧
      run s arguments = ⟨0, door ++ "\n", none⟩ ∧ run s again = run s arguments ∧
      output s (.path "../barn/./door" (some "/stable")) = .ok door ∧
      output s (.path door (some "/stable")) = .ok door ∧
      Path.read "/barn/yard/../door" = .ok way ∧ Path.read door = .ok straight ∧
      output s (.path "/barn/yard/../door" none) = .ok door ∧
      ∃ q q', way.normalize = .ok q ∧ straight.normalize = .ok q' ∧ q.elements = q'.elements := by
  intro s door arguments again way straight
  have asked : ofArguments arguments = .ok (.path "../barn/./door" (some "/stable")) := rfl
  have askedAgain : ofArguments again = .ok (.path door (some "/stable")) := by cbv
  have hprinted : output s (.path "../barn/./door" (some "/stable")) = .ok door := by cbv
  have hway : output s (.path "/barn/yard/../door" none) = .ok door := by cbv
  have hread : Path.read "/barn/yard/../door" = .ok way := by cbv
  have hstraight : Path.read door = .ok straight := by cbv
  have hrun := (run_path_iff asked).mpr hprinted
  obtain ⟨hagain, hrunAgain, halike⟩ := path_prints_canonical
  have hself := hagain s _ _ _ hprinted s
  obtain ⟨q, q', hq, hq', hsame⟩ := halike s _ _ _ _ _ _ _ _ hread hstraight rfl rfl hway hself
  exact ⟨asked, askedAgain, hrun, hrunAgain s _ _ _ _ asked hrun s _ askedAgain, hprinted, hself,
    hread, hstraight, hway, q, q', hq, hq', hsame.mp rfl⟩

end Polydoc.Command
