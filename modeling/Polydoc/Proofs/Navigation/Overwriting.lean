/-
  Proofs/Navigation/Overwriting.lean --- reading and overwriting through a path are a lens.

  A read and a write along one path stop together.  Where they do not, what was written is read
  back, writing back what was read changes nothing, and of two writes the later one is kept.  What
  else there is in the document is as before: `AgreeOff` says so of the documents, and every path
  that does not lead to the place, below it or to a node around it finds what it found.
-/
import Polydoc.Proofs.Navigation.Place
import Polydoc.Proofs.Results
import Polydoc.Resolver.Basic

set_option autoImplicit false

namespace Polydoc.Node

open Navigation

/-! ## Reads and writes stop together -/

theorem overwrite_error_iff (value : Node) {s : Stop} (es : List Element) :
    ∀ (n : Node) (index : Nat),
      n.walk index es = .error s ↔ n.overwrite value index es = .error s := by
  induction es with
  | nil => intro n index; simp [walk, overwrite]
  | cons e rest ih =>
    intro n index
    cases e with
    | self => exact ih n (index + 1)
    | name text =>
      rcases enter_cases n text with ⟨key, child, hk, _, he⟩ | ⟨_, he⟩
      · rw [walk_name he, overwrite_name hk he, ih child (index + 1)]
        cases child.overwrite value (index + 1) rest <;> simp [Except.map]
      · rw [walk_name_error he, overwrite_name_error he]
    | parent => simp [walk, overwrite]
    | root => simp [walk, overwrite]

/-- A write goes wherever a read does. -/
theorem exists_overwrite (value : Node) {n found : Node} {index : Nat} {es : List Element}
    (h : n.walk index es = .ok found) : ∃ m, n.overwrite value index es = .ok m := by
  cases hw : n.overwrite value index es with
  | ok m => exact ⟨m, rfl⟩
  | error s =>
    rw [(overwrite_error_iff value es n index).mpr hw] at h
    cases h

/-- What a write through a name does, seen from the node that is entered. -/
theorem overwrite_name_ok {n child m value : Node} {name key : String} {index : Nat}
    {rest : List Element} (hk : n.key? name = some key) (he : n.enter name = .ok child)
    (h : n.overwrite value index (.name name :: rest) = .ok m) :
    ∃ child', child.overwrite value (index + 1) rest = .ok child' ∧ m = n.store key child' := by
  rw [overwrite_name hk he] at h
  cases hc : child.overwrite value (index + 1) rest with
  | error s =>
    rw [hc] at h
    cases h
  | ok child' =>
    rw [hc] at h
    exact ⟨child', rfl, (Except.ok.inj h).symm⟩

/-- After a write, the name that was entered leads to the new child. -/
theorem enter_store {n child : Node} {name key : String} (hk : n.key? name = some key)
    (hs : n.stored? key = some child) (value : Node) :
    (n.store key value).key? name = some key ∧ (n.store key value).enter name = .ok value := by
  have hk' : (n.store key value).key? name = some key := by rw [key?_store hs, hk]
  exact ⟨hk', enter_of_key? hk' (stored?_store_self hs value)⟩

/-! ## The three laws -/

/-- What was written is read. -/
theorem walk_overwrite {value : Node} {es : List Element} :
    ∀ {n m : Node} {index : Nat} (other : Nat),
      n.overwrite value index es = .ok m → m.walk other es = .ok value := by
  induction es with
  | nil =>
    intro n m index other h
    cases h
    rfl
  | cons e rest ih =>
    intro n m index other h
    cases e with
    | self => exact ih (other + 1) h
    | name text =>
      rcases enter_cases n text with ⟨key, child, hk, hs, he⟩ | ⟨_, he⟩
      · obtain ⟨child', hc, rfl⟩ := overwrite_name_ok hk he h
        rw [walk_name (enter_store hk hs child').2]
        exact ih (other + 1) hc
      · rw [overwrite_name_error he] at h
        cases h
    | parent => cases h
    | root => cases h

/-- Writing back what is read changes nothing. -/
theorem overwrite_walk {found : Node} {es : List Element} :
    ∀ {n : Node} {index : Nat} (other : Nat),
      n.walk index es = .ok found → n.overwrite found other es = .ok n := by
  induction es with
  | nil =>
    intro n index other h
    cases h
    rfl
  | cons e rest ih =>
    intro n index other h
    cases e with
    | self => exact ih (other + 1) h
    | name text =>
      rcases enter_cases n text with ⟨key, child, hk, hs, he⟩ | ⟨_, he⟩
      · rw [walk_name he] at h
        rw [overwrite_name hk he, ih (other + 1) h]
        exact congrArg Except.ok (store_stored hs)
      · rw [walk_name_error he] at h
        cases h
    | parent => cases h
    | root => cases h

/-- The later of two writes is kept. -/
theorem overwrite_overwrite {value : Node} (later : Node) {es : List Element} :
    ∀ {n m : Node} {index : Nat} (other : Nat), n.overwrite value index es = .ok m →
      m.overwrite later other es = n.overwrite later other es := by
  induction es with
  | nil => intro n m index other h; rfl
  | cons e rest ih =>
    intro n m index other h
    cases e with
    | self => exact ih (other + 1) h
    | name text =>
      rcases enter_cases n text with ⟨key, child, hk, hs, he⟩ | ⟨_, he⟩
      · obtain ⟨child', hc, rfl⟩ := overwrite_name_ok hk he h
        obtain ⟨hk', he'⟩ := enter_store hk hs child'
        rw [overwrite_name hk' he', overwrite_name hk he, ih (other + 1) hc,
          funext (store_store hs child')]
      · rw [overwrite_name_error he] at h
        cases h
    | parent => cases h
    | root => cases h

/-! ## The rest of the document -/

/-- Two documents that agree everywhere but at a place. -/
inductive AgreeOff : List String → Node → Node → Prop where
  | here (old new : Node) : AgreeOff [] old new
  | inside {n child child' : Node} {key : String} {place : List String}
      (stored : n.stored? key = some child) (inner : AgreeOff place child child') :
      AgreeOff (key :: place) n (n.store key child')

/-- A write changes nothing off its place. -/
theorem agreeOff_overwrite {value : Node} {es : List Element} :
    ∀ {n m : Node} {index : Nat}, n.overwrite value index es = .ok m →
      AgreeOff (n.place es) n m := by
  induction es with
  | nil => intro n m index h; exact .here n m
  | cons e rest ih =>
    intro n m index h
    cases e with
    | self => exact ih h
    | name text =>
      rcases enter_cases n text with ⟨key, child, hk, hs, he⟩ | ⟨_, he⟩
      · obtain ⟨child', hc, rfl⟩ := overwrite_name_ok hk he h
        rw [place_name hk he]
        exact .inside hs (ih hc)
      · rw [overwrite_name_error he] at h
        cases h
    | parent => cases h
    | root => cases h

/-- A walk that neither stops at the place or below it nor ends around it goes as before. -/
theorem AgreeOff.walk_eq {place : List String} {n m : Node} (h : AgreeOff place n m) :
    ∀ (es : List Element) (index : Nat), ¬ place <+: n.place es →
      (∀ found, n.walk index es = .ok found → ¬ n.place es <+: place) →
      m.walk index es = n.walk index es := by
  induction h with
  | here old new => intro es index hoff _; exact absurd List.nil_prefix hoff
  | @inside n child child' key place hs _ ih =>
    intro es
    induction es with
    | nil => intro index _ haround; exact absurd List.nil_prefix (haround n rfl)
    | cons e rest ihes =>
      intro index hoff haround
      cases e with
      | self => exact ihes (index + 1) hoff haround
      | name text =>
        rcases (sameBut_store hs child').enter_cases hs (stored?_store_self hs child') text with
          ⟨hk, he, he'⟩ | ⟨_, found, _, _, he, he'⟩ | ⟨_, he, he'⟩
        · rw [place_name hk he] at hoff
          rw [walk_name he, place_name hk he] at haround
          rw [walk_name he, walk_name he']
          refine ih rest (index + 1) (fun hp => hoff ?_) fun a ha hp => haround a ha ?_
          · exact List.cons_prefix_cons.mpr ⟨rfl, hp⟩
          · exact List.cons_prefix_cons.mpr ⟨rfl, hp⟩
        · rw [walk_name he, walk_name he']
        · rw [walk_name_error he, walk_name_error he']
      | parent => rfl
      | root => rfl

/-- A node around the place keeps its layers, its type and its keys. -/
theorem AgreeOff.outline_eq {place : List String} {n m : Node} (h : AgreeOff place n m) :
    ∀ (es : List Element) (index : Nat) (found : Node), n.walk index es = .ok found →
      n.place es <+: place → n.place es ≠ place →
      ∃ found', m.walk index es = .ok found' ∧ found'.outline = found.outline := by
  induction h with
  | here old new =>
    intro es index found _ hp hne
    exact absurd (List.prefix_nil.mp hp) hne
  | @inside n child child' key place hs _ ih =>
    intro es
    induction es with
    | nil =>
      intro index found hw _ _
      cases hw
      exact ⟨_, rfl, outline_store hs child'⟩
    | cons e rest ihes =>
      intro index found hw hp hne
      cases e with
      | self => exact ihes (index + 1) found hw hp hne
      | name text =>
        rcases enter_cases n text with ⟨key', entered, hk, hs', he⟩ | ⟨_, he⟩
        · rw [place_name hk he] at hp hne
          rw [walk_name he] at hw
          obtain ⟨rfl, hinner⟩ := List.cons_prefix_cons.mp hp
          rw [hs] at hs'
          cases hs'
          rw [walk_name (enter_store hk hs child').2]
          exact ih rest (index + 1) found hw hinner fun heq => hne (by rw [heq])
        · rw [walk_name_error he] at hw
          cases hw
      | parent => cases hw
      | root => cases hw

/-! ## Paths as lenses -/

/-- Whether the walk along `q` has nothing to do with the place of `p`: it stops neither there nor
below, and it does not end at a node around it. -/
def Spares (n : Node) (p q : Path) : Prop :=
  ¬ n.place p.elements <+: n.place q.elements ∧
    ∀ found, n.at? q = .ok found → ¬ n.place q.elements <+: n.place p.elements

theorem at?_eq_ok_iff {n found : Node} {p : Path} :
    n.at? p = .ok found ↔ n.walk 0 p.elements = .ok found := by
  unfold at?
  exact mapError_eq_ok_iff

theorem setAt?_eq_ok_iff {n m value : Node} {p : Path} :
    n.setAt? p value = .ok m ↔ n.overwrite value 0 p.elements = .ok m := by
  unfold setAt?
  exact mapError_eq_ok_iff

theorem at?_error_iff {n : Node} {p : Path} (value : Node) {e : Error} :
    n.at? p = .error e ↔ n.setAt? p value = .error e := by
  unfold at? setAt?
  cases hw : n.walk 0 p.elements with
  | error s =>
    rw [(overwrite_error_iff value p.elements n 0).mp hw]
  | ok found =>
    obtain ⟨m, hm⟩ := exists_overwrite value hw
    rw [hm]
    constructor
    · intro h
      cases h
    · intro h
      cases h

theorem at?_eq_of_spares {n m value : Node} {p q : Path} (h : n.setAt? p value = .ok m)
    (hq : Spares n p q) : m.at? q = n.at? q := by
  have hoff := agreeOff_overwrite (setAt?_eq_ok_iff.mp h)
  have hwalk := hoff.walk_eq q.elements 0 hq.1 fun found hf => hq.2 found (at?_eq_ok_iff.mpr hf)
  rw [at?, at?, hwalk]

/-- What writing `value` through `p` makes of the document `n`, if the write is that of a lens. -/
structure LawfulWrite (n : Node) (p : Path) (value written : Node) : Prop where
  /-- the value written is read -/
  readsBack : written.at? p = .ok value
  /-- a later write makes the earlier one vanish -/
  giveWay : ∀ later, written.setAt? p later = n.setAt? p later
  /-- a path that has nothing to do with the place finds what it found, node or error -/
  spares : ∀ q, Spares n p q → written.at? q = n.at? q
  /-- a node around the place keeps its layers, its type and the order of its keys -/
  around : ∀ q node, n.at? q = .ok node → n.place q.elements <+: n.place p.elements →
    n.place q.elements ≠ n.place p.elements →
    ∃ node', written.at? q = .ok node' ∧ node'.outline = node.outline

theorem lawfulWrite_of_setAt? {n m value : Node} {p : Path} (h : n.setAt? p value = .ok m) :
    LawfulWrite n p value m := by
  have hover : n.overwrite value 0 p.elements = .ok m := setAt?_eq_ok_iff.mp h
  refine ⟨at?_eq_ok_iff.mpr (walk_overwrite 0 hover), fun later => ?_,
    fun q hq => at?_eq_of_spares h hq, fun q node hnode hp hne => ?_⟩
  · rw [setAt?, setAt?, overwrite_overwrite later 0 hover]
  · obtain ⟨node', hwalk, hout⟩ := (agreeOff_overwrite hover).outline_eq q.elements 0 node
      (at?_eq_ok_iff.mp hnode) hp hne
    exact ⟨node', at?_eq_ok_iff.mpr hwalk, hout⟩

/-- **Reading and overwriting are a lens.**  A read and a write through a path fail together, with
the same error.  Where they do not, the path names the node at its place, writing back the value
read changes nothing, and writing any value is lawful.  Assigning a type is writing its zero record,
and a resolver whose assignment fails leaves the document as it was. -/
theorem read_overwrite_lens (n : Node) (p : Path) (value : Node) :
    (∀ e, n.at? p = .error e ↔ n.setAt? p value = .error e) ∧
      (∀ found, n.at? p = .ok found →
        n.follow? (n.place p.elements) = some found ∧ n.setAt? p found = .ok n ∧
          ∃ written, n.setAt? p value = .ok written ∧ LawfulWrite n p value written) ∧
      ∀ type : RecordType, n.assignTypeAt? p type = n.setAt? p type.zero ∧
        ∀ (r : Resolver) (source : Node), r.target = p → r.choose source = .ok (.ok type) →
          (∀ e, n.at? p = .error e →
            r.assign source n = (n, .error (.navigation .assignType e))) ∧
          ∀ m, n.setAt? p type.zero = .ok m → r.assign source n = (m, .ok true) := by
  refine ⟨fun e => at?_error_iff value, fun found hfound => ?_, fun type => ⟨rfl, ?_⟩⟩
  · have hwalk : n.walk 0 p.elements = .ok found := at?_eq_ok_iff.mp hfound
    obtain ⟨written, hover⟩ := exists_overwrite value hwalk
    have hset : n.setAt? p value = .ok written := setAt?_eq_ok_iff.mpr hover
    exact ⟨follow?_place hwalk, setAt?_eq_ok_iff.mpr (overwrite_walk 0 hwalk), written, hset,
      lawfulWrite_of_setAt? hset⟩
  · intro r source htarget hchoose
    subst htarget
    refine ⟨fun e he => ?_, fun m hm => ?_⟩
    · have hset : n.assignTypeAt? r.target type = .error e := (at?_error_iff type.zero).mp he
      simp only [Resolver.assign, hchoose, hset]
    · have hset : n.assignTypeAt? r.target type = .ok m := hm
      simp only [Resolver.assign, hchoose, hset]

end Polydoc.Node
