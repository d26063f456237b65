/-
  Proofs/Schema/Making.lean --- all declared types are made, or there is something wrong with them.

  Types are made by a search in depth: before a type, those that its fields refer to.  The search is
  bounded by the number of types, which never matters (`make_searches`).  What one call does is said
  once (`Grows`, `Comes`): it lists more types, each behind those that it refers to, or it fails with
  an error that is true of the declared types.
-/
import Polydoc.Proofs.Schema.References
import Polydoc.Schema.Compile

set_option autoImplicit false

namespace Polydoc.Schema

/-! ## The search without its bound -/

/-- A search in depth through the declared types, the types on the way to a type being given: one
that is made is found, one that is on the way closes a cycle, and one that is declared is made from
its fields with itself on the way. -/
def Searches (declared : Declared) (find : List String → Maker) : Prop :=
  ∀ making type built, find making type built =
    match Entries.get? type built with
    | some t => .ok (t, built)
    | none =>
      if type ∈ making then .error (.cycle (making.dropWhile (· ≠ type) ++ [type]))
      else
        match Entries.get? type declared with
        | none => .error (.unknown type)
        | some fields =>
          match fieldsOf (find (making ++ [type])) type fields built with
          | .error e => .error e
          | .ok (kinds, built) =>
            .ok (RecordType.ofFields type kinds,
              built ++ [(type, RecordType.ofFields type kinds)])

/-- What is declared and not on the way is open. -/
def Remaining (declared : Declared) (making : List String) (open_ : Declared) : Prop :=
  ∀ type, Entries.get? type open_ =
    if type ∈ making then none else Entries.get? type declared

theorem remaining_all (declared : Declared) : Remaining declared [] declared := by
  intro type
  rw [if_neg List.not_mem_nil]

section Bound

variable {declared open_ : Declared} {making : List String} {type : String}

theorem get?_others (type other : String) (open_ : Declared) :
    Entries.get? other (open_.filter (·.1 ≠ type)) =
      if other = type then none else Entries.get? other open_ := by
  induction open_ with
  | nil => simp
  | cons e rest ih =>
    obtain ⟨k, fields⟩ := e
    by_cases hk : k = type
    · rw [List.filter_cons_of_neg (by simpa using hk), ih, Entries.get?, hk]
      by_cases hother : other = type
      · rw [if_pos hother, if_pos hother]
      · rw [if_neg hother, if_neg hother, if_neg (Ne.symm hother)]
    · rw [List.filter_cons_of_pos (by simpa using hk), Entries.get?, Entries.get?, ih]
      by_cases hother : k = other
      · rw [if_pos hother, if_pos hother, if_neg (hother ▸ hk)]
      · rw [if_neg hother, if_neg hother]

/-- A type that is being made is no longer open. -/
theorem Remaining.others (h : Remaining declared making open_) (type : String) :
    Remaining declared (making ++ [type]) (open_.filter (·.1 ≠ type)) := by
  intro other
  rw [get?_others, h other]
  by_cases hother : other = type <;> simp [hother]

theorem length_others {fields : List (String × String)}
    (h : Entries.get? type open_ = some fields) :
    (open_.filter (·.1 ≠ type)).length < open_.length := by
  refine List.length_filter_lt_length_iff_exists.mpr ⟨_, Entries.mem_of_get? h, ?_⟩
  simp

/-- What is not open is on the way or not declared. -/
theorem Remaining.missing_eq (h : Remaining declared making open_)
    (hnone : Entries.get? type open_ = none)
    (found : List (String × String) → Except TypeError (RecordType × Built)) :
    Except.error (missing making type) =
      if type ∈ making then .error (.cycle (making.dropWhile (· ≠ type) ++ [type]))
      else
        match Entries.get? type declared with
        | none => .error (.unknown type)
        | some fields => found fields := by
  have hget := h type
  unfold missing
  by_cases hmaking : type ∈ making
  · rw [if_pos hmaking, if_pos hmaking]
  · rw [if_neg hmaking, hnone] at hget
    rw [if_neg hmaking, if_neg hmaking, ← hget]

theorem Remaining.not_mem (h : Remaining declared making open_)
    {fields : List (String × String)} (hfields : Entries.get? type open_ = some fields) :
    type ∉ making ∧ Entries.get? type declared = some fields := by
  have hget := h type
  rw [hfields] at hget
  by_cases hmaking : type ∈ making
  · rw [if_pos hmaking] at hget
    cases hget
  · rw [if_neg hmaking] at hget
    exact ⟨hmaking, hget.symm⟩

/-! One equation for each thing that a call can do -/

theorem make_found {limit : Nat} {built : Built} {t : RecordType}
    (h : Entries.get? type built = some t) :
    make limit open_ making type built = .ok (t, built) := by
  rw [make.eq_def]
  dsimp only
  rw [h]

theorem make_missing {limit : Nat} {built : Built} (h : Entries.get? type built = none)
    (hopen : Entries.get? type open_ = none) :
    make limit open_ making type built = .error (missing making type) := by
  rewrite [make.eq_def]
  dsimp only
  rewrite [h, hopen]
  cases limit <;> rfl

theorem make_open {limit : Nat} {built : Built} {fields : List (String × String)}
    (h : Entries.get? type built = none) (hopen : Entries.get? type open_ = some fields) :
    make (limit + 1) open_ making type built =
      match fieldsOf (make limit (open_.filter (·.1 ≠ type)) (making ++ [type])) type fields
        built with
      | .error e => .error e
      | .ok (kinds, built) =>
        .ok (RecordType.ofFields type kinds,
          built ++ [(type, RecordType.ofFields type kinds)]) := by
  rewrite [make.eq_def]
  dsimp only
  rewrite [h, hopen]
  rfl

/-- Where a type is open there is room to make it, and for the others behind it. -/
theorem exists_succ_of_open {limit : Nat} {fields : List (String × String)}
    (hfields : Entries.get? type open_ = some fields) (hlimit : open_.length ≤ limit) :
    ∃ room, limit = room + 1 ∧ (open_.filter (·.1 ≠ type)).length ≤ room := by
  have hlength := length_others hfields
  exact ⟨limit - 1, by omega, by omega⟩

/-- A bound that is not below the number of open types is never met. -/
theorem make_bound {limit : Nat} : ∀ {limit' : Nat} {open_ open' : Declared} {making : List String},
    open_.length ≤ limit → open'.length ≤ limit' → Remaining declared making open_ →
    Remaining declared making open' → make limit open_ making = make limit' open' making := by
  induction limit using Nat.strongRecOn with
  | ind limit ih =>
    intro limit' open_ open' making hlimit hlimit' hopen hopen'
    funext type built
    have hsame : Entries.get? type open' = Entries.get? type open_ := by rw [hopen, hopen']
    cases hbuilt : Entries.get? type built with
    | some t => rw [make_found hbuilt, make_found hbuilt]
    | none =>
      cases hfields : Entries.get? type open_ with
      | none => rw [make_missing hbuilt hfields, make_missing hbuilt (hsame.trans hfields)]
      | some fields =>
        obtain ⟨room, rfl, hroom⟩ := exists_succ_of_open hfields hlimit
        obtain ⟨room', rfl, hroom'⟩ := exists_succ_of_open (hsame.trans hfields) hlimit'
        rw [make_open hbuilt hfields, make_open hbuilt (hsame.trans hfields),
          ih room (Nat.lt_succ_self room) hroom hroom' (hopen.others type) (hopen'.others type)]

/-- What a search finds is what is made under such a bound. -/
theorem make_eq_of_searches {find : List String → Maker} (hfind : Searches declared find)
    {limit : Nat} : ∀ {open_ : Declared} {making : List String}, open_.length ≤ limit →
      Remaining declared making open_ → make limit open_ making = find making := by
  induction limit using Nat.strongRecOn with
  | ind limit ih =>
    intro open_ making hlimit hopen
    funext type built
    rw [hfind]
    cases hbuilt : Entries.get? type built with
    | some t => rw [make_found hbuilt]
    | none =>
      cases hfields : Entries.get? type open_ with
      | none => rw [make_missing hbuilt hfields, hopen.missing_eq hfields]
      | some fields =>
        obtain ⟨hmaking, hdeclared⟩ := hopen.not_mem hfields
        obtain ⟨room, rfl, hroom⟩ := exists_succ_of_open hfields hlimit
        rw [make_open hbuilt hfields, if_neg hmaking, hdeclared,
          ih room (Nat.lt_succ_self room) hroom (hopen.others type)]

/-- The search, under a bound that is never met. -/
def search (declared : Declared) (making : List String) : Maker :=
  make declared.length (declared.filter (·.1 ∉ making)) making

theorem remaining_search (declared : Declared) (making : List String) :
    Remaining declared making (declared.filter (·.1 ∉ making)) := by
  intro type
  induction declared with
  | nil => simp
  | cons e rest ih =>
    obtain ⟨k, fields⟩ := e
    by_cases hk : k ∈ making
    · rw [List.filter_cons_of_neg (by simpa using hk), ih, Entries.get?]
      by_cases htype : k = type
      · rw [if_pos (htype ▸ hk), if_pos (htype ▸ hk)]
      · rw [if_neg htype]
    · rw [List.filter_cons_of_pos (by simpa using hk), Entries.get?, Entries.get?, ih]
      by_cases htype : k = type
      · rw [if_pos htype, if_pos htype, if_neg (htype ▸ hk)]
      · rw [if_neg htype, if_neg htype]

theorem searches_search (declared : Declared) : Searches declared (search declared) := by
  intro making type built
  have hlimit (making : List String) :
      (declared.filter (·.1 ∉ making)).length ≤ declared.length := List.length_filter_le ..
  have hopen := remaining_search declared making
  rw [search]
  cases hbuilt : Entries.get? type built with
  | some t => rw [make_found hbuilt]
  | none =>
    cases hfields : Entries.get? type (declared.filter (·.1 ∉ making)) with
    | none => rw [make_missing hbuilt hfields, hopen.missing_eq hfields]
    | some fields =>
      obtain ⟨hmaking, hdeclared⟩ := hopen.not_mem hfields
      obtain ⟨room, hsucc, hroom⟩ := exists_succ_of_open hfields (hlimit making)
      have hnext : make room ((declared.filter (·.1 ∉ making)).filter (·.1 ≠ type))
          (making ++ [type]) = search declared (making ++ [type]) :=
        make_bound hroom (hlimit (making ++ [type])) (hopen.others type)
          (remaining_search declared (making ++ [type]))
      rw [hsucc, make_open hbuilt hfields, if_neg hmaking, hdeclared, hnext]

/-- There is no other search: what it finds is determined by the declared types. -/
theorem eq_search_of_searches {find : List String → Maker} (hfind : Searches declared find) :
    find = search declared := by
  funext making
  exact (make_eq_of_searches hfind (List.length_filter_le ..)
    (remaining_search declared making)).symm

theorem makeAll_eq_foldlM (declared : Declared) (names : List String) (built : Built) :
    makeAll declared names built =
      names.foldlM (fun built type => (search declared [] type built).map Prod.snd) built := by
  have hmake : make declared.length declared [] = search declared [] :=
    make_eq_of_searches (searches_search declared) (Nat.le_refl _) (remaining_all declared)
  induction names generalizing built with
  | nil => rfl
  | cons type rest ih =>
    rw [makeAll, hmake, List.foldlM_cons]
    cases search declared [] type built with
    | error e => rfl
    | ok found => exact ih found.2

end Bound

/-! ## What one call does -/

/-- What was made is still there, in front of what is listed since; all of that was open. -/
structure Grows (declared open_ : Declared) (built built' : Built) : Prop where
  listed : Listed declared built'
  front : built <+: built'
  new : ∀ name ∈ Entries.keys built', name ∈ Entries.keys built ∨ name ∈ Entries.keys open_

/-- A call lists more types and gives the right value, or it fails with an error that is true. -/
inductive Comes {α : Type} (declared open_ : Declared) (built : Built)
    (right : α → Built → Prop) : Except TypeError (α × Built) → Prop where
  | ok {a : α} {built' : Built} (grows : Grows declared open_ built built')
      (value : right a built') : Comes declared open_ built right (.ok (a, built'))
  | error {e : TypeError} (explains : declared.Explains e) :
      Comes declared open_ built right (.error e)

section Calls

variable {declared open_ : Declared} {built built' : Built} {making : List String} {type : String}

theorem Grows.refl (h : Listed declared built) : Grows declared open_ built built :=
  ⟨h, List.prefix_refl built, fun _ => .inl⟩

theorem Grows.trans {built'' : Built} (h : Grows declared open_ built built')
    (h' : Grows declared open_ built' built'') : Grows declared open_ built built'' where
  listed := h'.listed
  front := h.front.trans h'.front
  new name hname := by
    rcases h'.new name hname with hbuilt' | hopen
    · exact h.new name hbuilt'
    · exact .inr hopen

/-- A type that is made stays made. -/
theorem Grows.mem_keys (h : Grows declared open_ built built') {name : String}
    (hname : name ∈ Entries.keys built) : name ∈ Entries.keys built' := by
  obtain ⟨more, rfl⟩ := h.front
  rw [Entries.keys, List.map_append]
  exact List.mem_append_left _ hname

theorem Comes.map {α β : Type} {right : α → Built → Prop} {right' : β → Built → Prop}
    {result : Except TypeError (α × Built)} (h : Comes declared open_ built right result)
    (f : α → β) (hf : ∀ a built', right a built' → right' (f a) built') :
    Comes declared open_ built right' (result.map fun (a, built') => (f a, built')) := by
  cases h with
  | ok grows value => exact .ok grows (hf _ _ value)
  | error explains => exact .error explains

theorem kindOf_comes {maker : Maker} {form : Kind.Form}
    (hmaker : ∀ name ∈ form.names, ∀ {built : Built}, Listed declared built →
      Comes declared open_ built (fun t built' => Entries.get? name built' = some t)
        (maker name built))
    (h : Listed declared built) :
    Comes declared open_ built (fun kind built' => form.filled built' = some kind)
      (kindOf maker form built) := by
  induction form with
  | sequence item ih =>
    refine (ih hmaker).map Kind.sequence fun kind built' hfilled => ?_
    rw [Kind.Form.filled, hfilled]
    rfl
  | optional inner ih =>
    refine (ih hmaker).map Kind.optional fun kind built' hfilled => ?_
    rw [Kind.Form.filled, hfilled]
    rfl
  | named name =>
    refine (hmaker name List.mem_cons_self h).map Kind.ofType fun t built' hget => ?_
    rw [Kind.Form.filled, hget]
    rfl
  | _ => exact .ok (.refl h) rfl

/-- The fields of a type, if all types that it refers to can be made or fail as they should. -/
theorem fieldsOf_comes {maker : Maker} {fields : List (String × String)}
    (declares : Entries.get? type declared = some fields)
    (hmaker : ∀ name, declared.Refers type name → ∀ {built : Built}, Listed declared built →
      Comes declared open_ built (fun t built' => Entries.get? name built' = some t)
        (maker name built)) :
    ∀ {todo : List (String × String)} {built : Built}, (∀ e ∈ todo, e ∈ fields) →
      Listed declared built →
      Comes declared open_ built (fun kinds built' => List.Forall₂ (FieldMeans built') todo kinds)
        (fieldsOf maker type todo built) := by
  intro todo
  induction todo with
  | nil =>
    intro built _ h
    exact .ok (.refl h) .nil
  | cons e rest ih =>
    obtain ⟨field, text⟩ := e
    intro built htodo h
    have hmem : (field, text) ∈ fields := htodo _ List.mem_cons_self
    have hrest : ∀ e ∈ rest, e ∈ fields := fun e he => htodo e (List.mem_cons_of_mem _ he)
    rw [fieldsOf]
    cases hform : Kind.Form.read? text with
    | none => exact .error (.emptyKind declares hmem hform)
    | some form =>
      have hkind : Comes declared open_ built (fun kind built' => form.filled built' = some kind)
          (kindOf maker form built) :=
        kindOf_comes (fun name hname =>
          hmaker name ⟨fields, declares, _, hmem, form, hform, hname⟩) h
      dsimp only
      cases hfirst : kindOf maker form built with
      | error cause =>
        rw [hfirst] at hkind
        cases hkind with
        | error explains => exact .error (.inField explains)
      | ok found =>
        obtain ⟨kind, built₁⟩ := found
        rw [hfirst] at hkind
        cases hkind with
        | ok grows hfilled =>
          have hmore := ih hrest grows.listed
          dsimp only
          cases hlater : fieldsOf maker type rest built₁ with
          | error e =>
            rw [hlater] at hmore
            cases hmore with
            | error explains => exact .error explains
          | ok found =>
            obtain ⟨kinds, built₂⟩ := found
            rw [hlater] at hmore
            cases hmore with
            | ok grows' hmeans =>
              refine .ok (grows.trans grows') (.cons ⟨rfl, form, hform, ?_⟩ hmeans)
              -- the first kind was filled when fewer types were made
              obtain ⟨more, rfl⟩ := grows'.front
              exact filled_append hfilled

/-- A type that is on the way to itself closes a cycle. -/
theorem cycle_of_mem (hchain : (making ++ [type]).IsChain declared.Refers) (hmem : type ∈ making) :
    declared.Cycle (making.dropWhile (· ≠ type) ++ [type]) := by
  have hsuffix : making.dropWhile (· ≠ type) ++ [type] <:+ making ++ [type] := by
    obtain ⟨front, hfront⟩ := List.dropWhile_suffix (l := making) (· ≠ type)
    exact ⟨front, by rw [← List.append_assoc, hfront]⟩
  obtain ⟨rest, hrest⟩ : ∃ rest, making.dropWhile (· ≠ type) = type :: rest := by
    clear hchain hsuffix
    induction making with
    | nil => cases hmem
    | cons first others ih =>
      by_cases hfirst : first = type
      · exact ⟨others, by simp [hfirst]⟩
      · have hothers : type ∈ others := (List.mem_cons.mp hmem).resolve_left (Ne.symm hfirst)
        obtain ⟨rest, hrest⟩ := ih hothers
        exact ⟨rest, by simpa [hfirst] using hrest⟩
  refine ⟨hchain.suffix hsuffix, ?_, ?_⟩
  · rw [hrest, List.getLast?_concat]
    rfl
  · rw [hrest]
    simp

/-- What is said of a type that cannot be made is so, if the types on the way lead to it. -/
theorem Remaining.explains_missing (hopen : Remaining declared making open_)
    (hnone : Entries.get? type open_ = none) (hchain : (making ++ [type]).IsChain declared.Refers)
    (hknown : type ∈ Entries.keys declared ∨ ∃ other, declared.Refers other type) :
    declared.Explains (missing making type) := by
  unfold missing
  split
  · rename_i hmem
    exact .cycle (cycle_of_mem hchain hmem)
  · rename_i hmem
    have hundeclared : type ∉ Entries.keys declared := by
      have hget := hopen type
      rw [if_neg hmem, hnone] at hget
      rw [← Entries.get?_isSome_iff, ← hget]
      exact Bool.false_ne_true
    obtain ⟨other, hother⟩ := hknown.resolve_left hundeclared
    exact .unknown hother hundeclared

theorem mem_keys_others {name : String} :
    name ∈ Entries.keys (open_.filter (·.1 ≠ type)) ↔ name ≠ type ∧ name ∈ Entries.keys open_ := by
  rw [← Entries.get?_isSome_iff, ← Entries.get?_isSome_iff, get?_others]
  by_cases hname : name = type <;> simp [hname]

/-- A type is new when its fields have been made, since it was not open for them. -/
theorem Grows.not_mem (h : Grows declared (open_.filter (·.1 ≠ type)) built built')
    (hbuilt : Entries.get? type built = none) : type ∉ Entries.keys built' := by
  intro hmem
  rcases h.new type hmem with hold | hothers
  · rw [← Entries.get?_isSome_iff, hbuilt] at hold
    cases hold
  · exact (mem_keys_others.mp hothers).1 rfl

/-- A type is listed behind what its fields needed. -/
theorem Grows.snoc {fields : List (String × String)} {kinds : List (String × Kind)}
    (h : Grows declared (open_.filter (·.1 ≠ type)) built built')
    (hbuilt : Entries.get? type built = none) (hopen : type ∈ Entries.keys open_)
    (declares : Entries.get? type declared = some fields)
    (means : List.Forall₂ (FieldMeans built') fields kinds) :
    Grows declared open_ built (built' ++ [(type, RecordType.ofFields type kinds)]) where
  listed := .snoc h.listed (h.not_mem hbuilt) declares means
  front := h.front.trans (List.prefix_append ..)
  new name hname := by
    rw [Listed.keys_snoc] at hname
    rcases List.mem_append.mp hname with hbefore | hlast
    · exact (h.new name hbefore).imp_right fun hothers => (mem_keys_others.mp hothers).2
    · exact .inr (List.mem_singleton.mp hlast ▸ hopen)

/-- A type that is referred to, along the types on the way to it, is made or fails as it should. -/
theorem make_comes {limit : Nat} : ∀ {open_ : Declared} {making : List String} {type : String}
    {built : Built}, open_.length ≤ limit → Remaining declared making open_ →
    (making ++ [type]).IsChain declared.Refers →
    (type ∈ Entries.keys declared ∨ ∃ other, declared.Refers other type) → Listed declared built →
    Comes declared open_ built (fun t built' => Entries.get? type built' = some t)
      (make limit open_ making type built) := by
  induction limit using Nat.strongRecOn with
  | ind limit ih =>
    intro open_ making type built hlimit hopen hchain hknown h
    cases hbuilt : Entries.get? type built with
    | some t =>
      rw [make_found hbuilt]
      exact .ok (.refl h) hbuilt
    | none =>
      cases hfields : Entries.get? type open_ with
      | none =>
        rw [make_missing hbuilt hfields]
        exact .error (hopen.explains_missing hfields hchain hknown)
      | some fields =>
        obtain ⟨-, hdeclared⟩ := hopen.not_mem hfields
        obtain ⟨room, rfl, hroom⟩ := exists_succ_of_open hfields hlimit
        -- the types that the fields refer to are made with this one on the way to them
        have hnext : ∀ name, declared.Refers type name → ∀ {built : Built}, Listed declared built →
            Comes declared (open_.filter (·.1 ≠ type)) built
              (fun t built' => Entries.get? name built' = some t)
              (make room (open_.filter (·.1 ≠ type)) (making ++ [type]) name built) := by
          intro name hname built h
          refine ih room (Nat.lt_succ_self room) hroom (hopen.others type) ?_ (.inr ⟨type, hname⟩) h
          rw [List.append_assoc]
          exact List.isChain_append_cons_cons.mpr ⟨hchain, hname, List.isChain_singleton name⟩
        have hcomes := fieldsOf_comes hdeclared hnext (fun e he => he) h
        rw [make_open hbuilt hfields]
        cases hresult : fieldsOf (make room (open_.filter (·.1 ≠ type)) (making ++ [type])) type
          fields built with
        | error e =>
          rw [hresult] at hcomes
          cases hcomes with
          | error explains => exact .error explains
        | ok found =>
          obtain ⟨kinds, built'⟩ := found
          rw [hresult] at hcomes
          cases hcomes with
          | ok grows hmeans =>
            exact .ok (grows.snoc hbuilt (Entries.mem_keys_of_get? hfields) hdeclared hmeans)
              (Entries.get?_append_cons (grows.not_mem hbuilt) _ [])

/-- Declared types are made one after another, up to the first that fails. -/
theorem makeAll_comes (names : List String) : ∀ {built : Built},
    (∀ name ∈ names, name ∈ Entries.keys declared) → Listed declared built →
    (∃ built', makeAll declared names built = .ok built' ∧
        Grows declared declared built built' ∧ ∀ name ∈ names, name ∈ Entries.keys built') ∨
      ∃ e, makeAll declared names built = .error e ∧ declared.Explains e := by
  induction names with
  | nil =>
    intro built _ h
    exact .inl ⟨built, rfl, .refl h, fun name hname => by cases hname⟩
  | cons type rest ih =>
    intro built hnames h
    have hcomes : Comes declared declared built
        (fun t built' => Entries.get? type built' = some t)
        (make declared.length declared [] type built) :=
      make_comes (Nat.le_refl _) (remaining_all declared) (List.isChain_singleton type)
        (.inl (hnames type List.mem_cons_self)) h
    rw [makeAll]
    cases hfirst : make declared.length declared [] type built with
    | error e =>
      rw [hfirst] at hcomes
      cases hcomes with
      | error explains => exact .inr ⟨e, rfl, explains⟩
    | ok found =>
      obtain ⟨t, built₁⟩ := found
      rw [hfirst] at hcomes
      cases hcomes with
      | ok grows hget =>
        have hrest : ∀ name ∈ rest, name ∈ Entries.keys declared :=
          fun name hname => hnames name (List.mem_cons_of_mem _ hname)
        rcases ih hrest grows.listed with ⟨built₂, hok, grows', hmem⟩ | ⟨e, herror, explains⟩
        · refine .inl ⟨built₂, hok, grows.trans grows', fun name hname => ?_⟩
          rcases List.mem_cons.mp hname with rfl | hlater
          · exact grows'.mem_keys (Entries.mem_keys_of_get? hget)
          · exact hmem name hlater
        · exact .inr ⟨e, herror, explains⟩

/-- All types are listed, or what is wrong with them is told. -/
theorem typesOf_cases (declared : Declared) :
    (∃ types, typesOf declared = .ok types ∧ Listed declared types ∧
        ∀ name, name ∈ Entries.keys types ↔ name ∈ Entries.keys declared) ∨
      ∃ e, typesOf declared = .error e ∧ declared.Explains e := by
  rcases makeAll_comes (Entries.keys declared) (fun _ h => h) Listed.nil with
    ⟨types, hok, grows, hall⟩ | herror
  · refine .inl ⟨types, hok, grows.listed, fun name => ⟨fun hname => ?_, hall name⟩⟩
    rcases grows.new name hname with hnil | hdeclared
    · cases hnil
    · exact hdeclared
  · exact .inr herror

end Calls

end Polydoc.Schema
