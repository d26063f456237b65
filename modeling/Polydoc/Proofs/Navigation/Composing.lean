/-
  Proofs/Navigation/Composing.lean --- following two paths one after the other, and where a path
  cannot be followed any further.

  A walk along two paths goes on behind the first one as a walk of its own, so that it can be cut
  anywhere; only the count of the elements goes on as well.  `Blocked` tells why an element leads
  nowhere from a node.  A walk fails at the one element that is blocked where the elements before it
  lead, and along names and `.` alone it takes one member after another.
-/
import Polydoc.Proofs.Navigation.Backtracking

set_option autoImplicit false

namespace Polydoc

/-- The name of an element that has one. -/
def Element.name? : Element → Option String
  | .name text => some text
  | _ => none

namespace Path

/-- The names on a path, in their order. -/
def names (p : Path) : List String :=
  p.elements.filterMap Element.name?

/-- A path that has neither `..` nor root markers. -/
def Straight (p : Path) : Prop :=
  ∀ e ∈ p.elements, e.isName = true ∨ e = .self

end Path

namespace Navigation

/-- The same stop, at an element that stands `count` places further on. -/
def Stop.later (count : Nat) (s : Stop) : Stop :=
  { s with index := s.index + count }

/-- The same error, at an element of the path `p` that stands `count` places further on. -/
def Error.onto (p : Path) (count : Nat) (e : Error) : Error :=
  ⟨p, e.index + count, e.element, e.obstacle⟩

end Navigation

namespace Node

open Navigation

/-! ## Elements that lead nowhere -/

/-- Why an element cannot be followed from a node. -/
inductive Blocked (n : Node) : Element → Obstacle → Prop where
  | parent : Blocked n .parent .unnormalizedPath
  | root : Blocked n .root .unnormalizedPath
  | null {name : String} (core_eq : n.core = .null) : Blocked n (.name name) .nilValue
  | scalar {name : String} {s : Scalar} (core_eq : n.core = .scalar s) :
      Blocked n (.name name) .notContainer
  | sequence {name : String} {items : List Node} (core_eq : n.core = .sequence items) :
      Blocked n (.name name) .notContainer
  | key {name : String} {entries : List (String × Node)} (core_eq : n.core = .mapping entries)
      (missing : name ∉ Entries.keys entries) : Blocked n (.name name) .keyNotFound
  /-- no field has the name in any letter case -/
  | field {name : String} {type : RecordType} {held : List (String × Node)}
      (core_eq : n.core = .record type held)
      (missing : ∀ key ∈ Entries.keys held, Text.lowercase key ≠ Text.lowercase name) :
      Blocked n (.name name) .fieldNotFound

section Blocking

variable {n : Node} {name : String} {element : Element} {o : Obstacle}

theorem core_ne_indirect (n inner : Node) : n.core ≠ .indirect inner := by
  induction n using Node.core.induct with
  | case1 outer ih => exact ih
  | case2 n h =>
    cases n with
    | indirect outer => exact absurd rfl (h outer)
    | _ => simp [core]

/-- The names that do not lead into a node are the blocked ones. -/
theorem enter_eq_error_iff : n.enter name = .error o ↔ Blocked n (.name name) o := by
  unfold enter
  constructor
  · intro h
    cases hn : n.core with
    | null =>
      rw [hn] at h
      cases h
      exact .null hn
    | scalar s =>
      rw [hn] at h
      cases h
      exact .scalar hn
    | sequence items =>
      rw [hn] at h
      cases h
      exact .sequence hn
    | mapping entries =>
      simp only [hn] at h
      split at h
      · cases h
      · rename_i hnone
        cases h
        exact .key hn (Entries.get?_eq_none_iff.mp hnone)
    | record type held =>
      simp only [hn] at h
      split at h
      · cases h
      · rename_i hnone
        cases h
        refine .field hn fun key hmem hcase => ?_
        obtain ⟨stored, hstored⟩ := Entries.exists_resolve? hmem hcase
        rw [Entries.find?, hstored, Option.bind_some] at hnone
        exact Entries.get?_eq_none_iff.mp hnone (Entries.mem_keys_of_resolve? hstored)
    | indirect inner => exact absurd hn (core_ne_indirect n inner)
  · intro h
    cases h with
    | null hn => rw [hn]
    | scalar hn => rw [hn]
    | sequence hn => rw [hn]
    | @key _ entries hn missing =>
      have hnone : Entries.get? name entries = none :=
        Option.not_isSome_iff_eq_none.mp fun hs =>
          missing ((Entries.get?_isSome_iff name entries).mp hs)
      rw [hn]
      simp only [hnone]
    | @field _ type held hn missing =>
      have hnone : Entries.find? name held = none := by
        cases hr : Entries.resolve? name held with
        | none => rw [Entries.find?, hr, Option.bind_none]
        | some key =>
          exact absurd (Entries.lowercase_of_resolve? hr)
            (missing key (Entries.mem_keys_of_resolve? hr))
      rw [hn]
      simp only [hnone]

/-- A walk stops at a blocked element. -/
theorem Blocked.walk_eq (h : Blocked n element o) (index : Nat) (rest : List Element) :
    n.walk index (element :: rest) = .error ⟨index, element, o⟩ := by
  cases element with
  | name text => exact walk_name_error (enter_eq_error_iff.mpr h) index rest
  | self => cases h
  | parent =>
    cases h
    rfl
  | root =>
    cases h
    rfl

end Blocking

/-! ## Walks in two parts -/

theorem walk_later (count : Nat) (es : List Element) : ∀ (n : Node) (index : Nat),
    n.walk (index + count) es = (n.walk index es).mapError (Stop.later count) := by
  induction es with
  | nil =>
    intro n index
    rfl
  | cons e rest ih =>
    intro n index
    have hnext : index + count + 1 = index + 1 + count := Nat.add_right_comm index count 1
    cases e with
    | self =>
      rw [walk, walk, hnext]
      exact ih n (index + 1)
    | name text =>
      rcases enter_cases n text with ⟨_, child, _, _, he⟩ | ⟨_, he⟩
      · rw [walk_name he, walk_name he, hnext]
        exact ih child (index + 1)
      · rw [walk_name_error he, walk_name_error he]
        rfl
    | parent => rfl
    | root => rfl

/-- A walk that stops stops with whatever stands behind the elements. -/
theorem walk_append_error {es : List Element} (rest : List Element) :
    ∀ {n : Node} {index : Nat} {s : Stop}, n.walk index es = .error s →
      n.walk index (es ++ rest) = .error s := by
  induction es with
  | nil =>
    intro n index s h
    cases h
  | cons e es ih =>
    intro n index s h
    cases e with
    | self => exact ih h
    | name text =>
      rcases enter_cases n text with ⟨_, child, _, _, he⟩ | ⟨_, he⟩
      · rw [walk_name he] at h
        rw [List.cons_append, walk_name he]
        exact ih h
      · rw [walk_name_error he] at h
        rw [List.cons_append, walk_name_error he, h]
    | parent => exact h
    | root => exact h

/-- A walk stops where the elements before lead to a node from which the next one is blocked. -/
theorem walk_eq_error_iff {s : Stop} (es : List Element) : ∀ (n : Node) (index : Nat),
    n.walk index es = .error s ↔
      ∃ i, s.index = index + i ∧ es[i]? = some s.element ∧
        ∃ m, n.walk index (es.take i) = .ok m ∧ Blocked m s.element s.obstacle := by
  intro n index
  constructor
  · induction es generalizing n index with
    | nil =>
      intro h
      cases h
    | cons e rest ih =>
      intro h
      -- behind an element that is followed, the stop is one place further on
      have hstep (child : Node) (hchild : ∀ es, n.walk index (e :: es) = child.walk (index + 1) es) :
          ∃ i, s.index = index + i ∧ (e :: rest)[i]? = some s.element ∧
            ∃ m, n.walk index ((e :: rest).take i) = .ok m ∧ Blocked m s.element s.obstacle := by
        rw [hchild] at h
        obtain ⟨i, hindex, helement, m, hwalk, hblocked⟩ := ih child (index + 1) h
        refine ⟨i + 1, by omega, ?_, m, ?_, hblocked⟩
        · rw [List.getElem?_cons_succ, helement]
        · rw [List.take_succ_cons, hchild, hwalk]
      cases e with
      | self => exact hstep n fun es => rfl
      | name text =>
        rcases enter_cases n text with ⟨_, child, _, _, he⟩ | ⟨_, he⟩
        · exact hstep child fun es => walk_name he index es
        · rw [walk_name_error he] at h
          cases h
          exact ⟨0, rfl, rfl, n, rfl, enter_eq_error_iff.mp he⟩
      | parent =>
        cases h
        exact ⟨0, rfl, rfl, n, rfl, .parent⟩
      | root =>
        cases h
        exact ⟨0, rfl, rfl, n, rfl, .root⟩
  · rintro ⟨i, hindex, helement, m, hwalk, hblocked⟩
    obtain ⟨hlt, hget⟩ := List.getElem?_eq_some_iff.mp helement
    have hsplit : es = es.take i ++ s.element :: es.drop (i + 1) := by
      rw [← hget, ← List.drop_eq_getElem_cons hlt, List.take_append_drop]
    have hlength : (es.take i).length = i := List.length_take_of_le (Nat.le_of_lt hlt)
    rw [hsplit, walk_append _ hwalk, hblocked.walk_eq, hlength, ← hindex]

/-- Along names and `.` alone, a walk takes the members that the names lead to. -/
theorem walk_eq_ok_iff_foldlM {es : List Element} (h : ∀ e ∈ es, e.isName = true ∨ e = .self) :
    ∀ {n m : Node} {index : Nat}, n.walk index es = .ok m ↔
      (es.filterMap Element.name?).foldlM member? n = some m := by
  induction es with
  | nil =>
    intro n m index
    simp [walk]
  | cons e rest ih =>
    intro n m index
    have hrest : ∀ e ∈ rest, e.isName = true ∨ e = .self :=
      fun e he => h e (List.mem_cons_of_mem _ he)
    rcases h e List.mem_cons_self with hname | rfl
    · cases e with
      | name text =>
        have hnames : (Element.name text :: rest).filterMap Element.name? =
            text :: rest.filterMap Element.name? := rfl
        rw [hnames, List.foldlM_cons]
        cases hm : n.member? text with
        | some child =>
          rw [walk_name (enter_eq_ok_iff.mpr hm)]
          exact ih hrest
        | none =>
          rcases enter_cases n text with ⟨_, child, _, _, he⟩ | ⟨_, he⟩
          · rw [enter_eq_ok_iff.mp he] at hm
            cases hm
          · rw [walk_name_error he]
            simp
      | _ => cases hname
    · rw [List.filterMap_cons_none rfl]
      exact ih hrest

/-! ## Paths one behind the other -/

section Paths

variable {root n : Node} {p : Path} {e : Error}

theorem at?_eq_error_iff :
    root.at? p = .error e ↔
      e.path = p ∧ root.walk 0 p.elements = .error ⟨e.index, e.element, e.obstacle⟩ := by
  unfold at?
  obtain ⟨path, index, element, obstacle⟩ := e
  cases root.walk 0 p.elements with
  | ok found =>
    constructor
    · intro h
      cases h
    · rintro ⟨_, h⟩
      cases h
  | error s =>
    constructor
    · intro h
      cases h
      exact ⟨rfl, rfl⟩
    · rintro ⟨rfl, h⟩
      cases h
      rfl

/-- Behind a path that leads to a node, the outcome is that of a walk from there. -/
theorem at?_append (h : root.at? p = .ok n) (q : Path) (absolute : Bool) :
    root.at? ⟨p.elements ++ q.elements, absolute⟩ =
      (n.at? q).mapError (Error.onto ⟨p.elements ++ q.elements, absolute⟩ p.length) := by
  have hlater : n.walk (0 + p.elements.length) q.elements =
      (n.walk 0 q.elements).mapError (Stop.later p.elements.length) :=
    walk_later p.elements.length q.elements n 0
  rw [at?, at?, walk_append q.elements (at?_eq_ok_iff.mp h), hlater]
  cases n.walk 0 q.elements with
  | ok found => rfl
  | error s => rfl

theorem at?_append_error (h : root.at? p = .error e) (q : Path) (absolute : Bool) :
    root.at? ⟨p.elements ++ q.elements, absolute⟩ =
      .error (e.onto ⟨p.elements ++ q.elements, absolute⟩ 0) :=
  at?_eq_error_iff.mpr ⟨rfl, walk_append_error q.elements (at?_eq_error_iff.mp h).2⟩

/-- An error tells the one element that is blocked where the elements before it lead. -/
theorem at?_eq_error_iff_blocked (absolute : Bool) :
    root.at? p = .error e ↔
      e.path = p ∧ p.elements[e.index]? = some e.element ∧
        ∃ n, root.at? ⟨p.elements.take e.index, absolute⟩ = .ok n ∧
          Blocked n e.element e.obstacle := by
  simp only [at?_eq_error_iff, at?_eq_ok_iff, walk_eq_error_iff]
  constructor
  · rintro ⟨hpath, i, hindex, hrest⟩
    rw [Nat.zero_add] at hindex
    cases hindex
    exact ⟨hpath, hrest⟩
  · rintro ⟨hpath, hrest⟩
    exact ⟨hpath, e.index, (Nat.zero_add e.index).symm, hrest⟩

end Paths

/-- **Following a path is compositional.**  One path behind another leads to where the second leads
from the end of the first, and to nothing if either of them fails; the error is that of the part
which fails, counted from the start of the whole.  Reading fails exactly at an element that is blocked
where the elements before it lead.  Along names and `.` alone it takes one member after another.  And
whether a path is absolute shows nowhere but in the path that an error repeats. -/
theorem at?_composes (root : Node) (p q : Path) (absolute : Bool) :
    (∀ m, root.at? ⟨p.elements ++ q.elements, absolute⟩ = .ok m ↔
        ∃ n, root.at? p = .ok n ∧ n.at? q = .ok m) ∧
      (∀ n e, root.at? p = .ok n → n.at? q = .error e →
        root.at? ⟨p.elements ++ q.elements, absolute⟩ =
          .error (e.onto ⟨p.elements ++ q.elements, absolute⟩ p.length)) ∧
      (∀ e, root.at? p = .error e →
        root.at? ⟨p.elements ++ q.elements, absolute⟩ =
          .error (e.onto ⟨p.elements ++ q.elements, absolute⟩ 0)) ∧
      (∀ e, root.at? p = .error e ↔
        e.path = p ∧ p.elements[e.index]? = some e.element ∧
          ∃ n, root.at? ⟨p.elements.take e.index, absolute⟩ = .ok n ∧
            Blocked n e.element e.obstacle) ∧
      (p.Straight → ∀ m, root.at? p = .ok m ↔ p.names.foldlM member? root = some m) ∧
      root.at? ⟨p.elements, absolute⟩ =
        (root.at? p).mapError (Error.onto ⟨p.elements, absolute⟩ 0) := by
  refine ⟨fun m => ?_, fun n e hn he => ?_, fun e he => at?_append_error he q absolute,
    fun e => at?_eq_error_iff_blocked absolute, fun hstraight m => ?_, ?_⟩
  · constructor
    · intro h
      cases hp : root.at? p with
      | error e =>
        rw [at?_append_error hp] at h
        cases h
      | ok n =>
        rw [at?_append hp] at h
        cases hq : n.at? q with
        | error e =>
          rw [hq] at h
          cases h
        | ok found =>
          rw [hq] at h
          cases h
          exact ⟨n, rfl, hq⟩
    · rintro ⟨n, hn, hm⟩
      rw [at?_append hn, hm]
      rfl
  · rw [at?_append hn, he]
    rfl
  · rw [at?_eq_ok_iff, walk_eq_ok_iff_foldlM hstraight]
    rfl
  · rw [at?, at?]
    cases root.walk 0 p.elements with
    | ok found => rfl
    | error s => rfl

example :
    let root : Node := .mapping [("pet", .indirect (.mapping [("ages", .sequence [.integer 4])]))]
    let p : Path := ⟨[.name "pet", .self, .name "ages", .name "first", .parent], false⟩
    root.at? p = .error ⟨p, 3, .name "first", .notContainer⟩ := rfl

end Node

end Polydoc
