/-
  Proofs/Schema/References.lean --- which declared types refer to which, when declared types can be
  made into record types, and what the made types have to be.

  Nothing here mentions the making.  Types can be made when every kind can be read, every name that
  is referred to is declared, and no type refers to itself, directly or through others.  Made types
  are listed in an order in which each comes behind those that it refers to.
-/
import Mathlib.Data.List.Chain
import Polydoc.Proofs.Entries
import Polydoc.Schema.Types

set_option autoImplicit false

namespace Polydoc

open Schema (Built TypeError)

/-! ## References -/

namespace Declared

/-- No type is declared twice, and no type declares a field twice. -/
structure Distinct (declared : Declared) : Prop where
  types : Entries.Distinct declared
  fields : ∀ e ∈ declared, Entries.Distinct e.2

/-- A field of the first type has a kind in which the second is named, however deep. -/
def Refers (declared : Declared) (type other : String) : Prop :=
  ∃ fields, Entries.get? type declared = some fields ∧
    ∃ e ∈ fields, ∃ form, Kind.Form.read? e.2 = some form ∧ other ∈ form.names

/-- Types of which each refers to the next one, and that end where they begin. -/
structure Cycle (declared : Declared) (types : List String) : Prop where
  chain : types.IsChain declared.Refers
  closed : types.head? = types.getLast?
  long : 2 ≤ types.length

/-- What declared types need so that each of them can be made. -/
structure Makeable (declared : Declared) : Prop where
  readable : ∀ type fields, (type, fields) ∈ declared → ∀ e ∈ fields,
    ∃ form, Kind.Form.read? e.2 = some form
  known : ∀ type other, declared.Refers type other → other ∈ Entries.keys declared
  acyclic : ∀ type, ¬ Relation.TransGen declared.Refers type type

/-- What an error says is so: the kind cannot be read, the type is referred to and not declared, or
the types are a cycle. -/
inductive Explains (declared : Declared) : TypeError → Prop where
  | emptyKind {type field text : String} {fields : List (String × String)}
      (declares : Entries.get? type declared = some fields) (mem : (field, text) ∈ fields)
      (unreadable : Kind.Form.read? text = none) : Explains declared (.emptyKind type field)
  | unknown {type other : String} (refers : declared.Refers type other)
      (undeclared : other ∉ Entries.keys declared) : Explains declared (.unknown other)
  | cycle {types : List String} (cycle : declared.Cycle types) : Explains declared (.cycle types)
  | inField {type field : String} {cause : TypeError} (inner : Explains declared cause) :
      Explains declared (.inField type field cause)

variable {declared : Declared}

theorem Refers.mem_keys {type other : String} (h : declared.Refers type other) :
    type ∈ Entries.keys declared := by
  obtain ⟨fields, hfields, -⟩ := h
  exact Entries.mem_keys_of_get? hfields

/-- A cycle leads from its first type back to it. -/
theorem Cycle.transGen {types : List String} (h : declared.Cycle types) :
    ∃ type, Relation.TransGen declared.Refers type type := by
  obtain ⟨hchain, hclosed, hlong⟩ := h
  match types, hlong with
  | first :: second :: rest, _ =>
    have hrefers : declared.Refers first second := (List.isChain_cons_cons.mp hchain).1
    have hrest : (second :: rest).IsChain declared.Refers := (List.isChain_cons_cons.mp hchain).2
    have hlast : (second :: rest).getLast (List.cons_ne_nil _ _) = first := by
      have hsome : some first = (first :: second :: rest).getLast? := hclosed
      rw [List.getLast?_eq_some_getLast (List.cons_ne_nil _ _), Option.some.injEq,
        List.getLast_cons (List.cons_ne_nil _ _)] at hsome
      exact hsome.symm
    have hback : Relation.ReflTransGen declared.Refers second first := by
      have h := List.relationReflTransGen_of_exists_isChain _ hrest (List.cons_ne_nil _ _)
      rwa [hlast, List.head_cons] at h
    exact ⟨first, Relation.TransGen.head' hrefers hback⟩

/-- What is explained keeps the types from being made. -/
theorem Explains.not_makeable {e : TypeError} (h : declared.Explains e) : ¬ declared.Makeable := by
  intro hm
  induction h with
  | emptyKind declares mem unreadable =>
    obtain ⟨form, hform⟩ := hm.readable _ _ (Entries.mem_of_get? declares) _ mem
    rw [unreadable] at hform
    cases hform
  | unknown refers undeclared => exact undeclared (hm.known _ _ refers)
  | cycle cycle =>
    obtain ⟨type, htype⟩ := cycle.transGen
    exact hm.acyclic type htype
  | inField _ ih => exact ih

end Declared

/-! ## Made types -/

/-- The kind of a form in which each name stands for the type that is made for it. -/
def Kind.Form.filled (types : Built) : Kind.Form → Option Kind
  | .bool => some .bool
  | .integer => some .integer
  | .float => some .float
  | .string => some .string
  | .any => some .any
  | .mapping => some .mapping
  | .sequence item => (item.filled types).map .sequence
  | .optional inner => (inner.filled types).map .optional
  | .named type => (Entries.get? type types).map Kind.ofType

namespace Schema

/-- A written field and the field of a record type that it describes: of the same name, and of the
kind that its text means. -/
def FieldMeans (types : Built) (written : String × String) (field : String × Kind) : Prop :=
  field.1 = written.1 ∧
    ∃ form, Kind.Form.read? written.2 = some form ∧ form.filled types = some field.2

/-- Record types for declared types: one for each, with its name and its fields in their order, and
behind all the types that it refers to. -/
structure Describes (declared : Declared) (types : Built) : Prop where
  once : (Entries.keys types).Perm (Entries.keys declared)
  type : ∀ name t, (name, t) ∈ types → t.name = name ∧
    ∃ fields, Entries.get? name declared = some fields ∧
      List.Forall₂ (FieldMeans types) fields t.fields
  order : ∀ before name t after, types = before ++ (name, t) :: after →
    ∀ other, declared.Refers name other → other ∈ Entries.keys before

/-- Types that were made one after another, each from those in front of it. -/
inductive Listed (declared : Declared) : Built → Prop where
  | nil : Listed declared []
  | snoc {types : Built} {type : String} {fields : List (String × String)}
      {kinds : List (String × Kind)} (listed : Listed declared types)
      (new : type ∉ Entries.keys types) (declares : Entries.get? type declared = some fields)
      (means : List.Forall₂ (FieldMeans types) fields kinds) :
      Listed declared (types ++ [(type, RecordType.ofFields type kinds)])

/-! Types that are made later change nothing for a name that is made. -/

section Growing

variable {types others more : Built}

/-- Where each name stands for the same type as before, a form is filled as before. -/
theorem filled_mono
    (kept : ∀ name t, Entries.get? name types = some t → Entries.get? name others = some t)
    {form : Kind.Form} {kind : Kind} (h : form.filled types = some kind) :
    form.filled others = some kind := by
  induction form generalizing kind with
  | sequence item ih =>
    rw [Kind.Form.filled, Option.map_eq_some_iff] at h ⊢
    obtain ⟨k, hk, rfl⟩ := h
    exact ⟨k, ih hk, rfl⟩
  | optional inner ih =>
    rw [Kind.Form.filled, Option.map_eq_some_iff] at h ⊢
    obtain ⟨k, hk, rfl⟩ := h
    exact ⟨k, ih hk, rfl⟩
  | named type =>
    rw [Kind.Form.filled, Option.map_eq_some_iff] at h ⊢
    obtain ⟨t, ht, rfl⟩ := h
    exact ⟨t, kept type t ht, rfl⟩
  | _ => exact h

theorem filled_append {form : Kind.Form} {kind : Kind} (h : form.filled types = some kind) :
    form.filled (types ++ more) = some kind :=
  filled_mono (fun _ _ ht => Entries.get?_append_of_get? ht more) h

theorem forall₂_means_append {fields : List (String × String)} {kinds : List (String × Kind)}
    (h : List.Forall₂ (FieldMeans types) fields kinds) :
    List.Forall₂ (FieldMeans (types ++ more)) fields kinds := by
  refine h.imp fun written field hmeans => ?_
  obtain ⟨hname, form, hform, hfilled⟩ := hmeans
  exact ⟨hname, form, hform, filled_append hfilled⟩

/-- A name in a form that is filled is the name of a made type. -/
theorem mem_keys_of_filled {form : Kind.Form} {kind : Kind} (h : form.filled types = some kind)
    {name : String} (hname : name ∈ form.names) : name ∈ Entries.keys types := by
  induction form generalizing kind with
  | sequence item ih =>
    rw [Kind.Form.filled, Option.map_eq_some_iff] at h
    obtain ⟨k, hk, -⟩ := h
    exact ih hk hname
  | optional inner ih =>
    rw [Kind.Form.filled, Option.map_eq_some_iff] at h
    obtain ⟨k, hk, -⟩ := h
    exact ih hk hname
  | named type =>
    rw [Kind.Form.filled, Option.map_eq_some_iff] at h
    obtain ⟨t, ht, -⟩ := h
    rw [List.mem_singleton.mp hname]
    exact Entries.mem_keys_of_get? ht
  | _ => cases hname

/-- A written field that describes one can be read, and refers to made types alone. -/
theorem form_of_means {fields : List (String × String)} {kinds : List (String × Kind)}
    (h : List.Forall₂ (FieldMeans types) fields kinds) {e : String × String} (he : e ∈ fields) :
    ∃ form, Kind.Form.read? e.2 = some form ∧
      ∀ name ∈ form.names, name ∈ Entries.keys types := by
  induction h with
  | nil => cases he
  | cons hmeans _ ih =>
    rcases List.mem_cons.mp he with rfl | hrest
    · obtain ⟨-, form, hform, hfilled⟩ := hmeans
      exact ⟨form, hform, fun name hname => mem_keys_of_filled hfilled hname⟩
    · exact ih hrest

theorem keys_eq_of_means {fields : List (String × String)} {kinds : List (String × Kind)}
    (h : List.Forall₂ (FieldMeans types) fields kinds) :
    Entries.keys kinds = Entries.keys fields := by
  induction h with
  | nil => rfl
  | cons hmeans _ ih =>
    rw [Entries.keys, Entries.keys, List.map_cons, List.map_cons, hmeans.1]
    exact congrArg _ ih

end Growing

/-! ## Types in the order of their making -/

namespace Listed

variable {declared : Declared} {types : Built}

theorem keys_snoc (types : Built) (name : String) (t : RecordType) :
    Entries.keys (types ++ [(name, t)]) = Entries.keys types ++ [name] := by
  rw [Entries.keys, Entries.keys, List.map_append]
  rfl

theorem distinct (h : Listed declared types) : Entries.Distinct types := by
  induction h with
  | nil => exact List.nodup_nil
  | snoc _ new _ _ ih =>
    unfold Entries.Distinct
    rw [keys_snoc]
    exact List.nodup_append.mpr ⟨ih, by simp, by
      rintro a ha b hb rfl
      exact new (List.mem_singleton.mp hb ▸ ha)⟩

/-- A type comes behind all that it refers to. -/
theorem order (h : Listed declared types) : ∀ before name t after,
    types = before ++ (name, t) :: after →
    ∀ other, declared.Refers name other → other ∈ Entries.keys before := by
  induction h with
  | nil =>
    intro before name t after heq
    cases before <;> cases heq
  | @snoc types type fields kinds _ new declares means ih =>
    intro before name t after heq other hrefers
    rcases List.eq_nil_or_concat after with rfl | ⟨rest, last, rfl⟩
    · obtain ⟨rfl, hlast⟩ := List.append_inj' heq rfl
      cases hlast
      obtain ⟨fields', hfields', e, he, form, hform, hother⟩ := hrefers
      rw [declares] at hfields'
      cases hfields'
      obtain ⟨form', hform', hnames⟩ := form_of_means means he
      rw [hform] at hform'
      cases hform'
      exact hnames other hother
    · rw [List.concat_eq_append, ← List.cons_append, ← List.append_assoc] at heq
      obtain ⟨hfront, -⟩ := List.append_inj' heq rfl
      exact ih before name t rest hfront other hrefers

/-- Made types refer to made types. -/
theorem closed (h : Listed declared types) {name other : String} (hname : name ∈ Entries.keys types)
    (hrefers : declared.Refers name other) : other ∈ Entries.keys types := by
  obtain ⟨⟨k, t⟩, hmem, rfl⟩ := List.mem_map.mp hname
  obtain ⟨before, after, rfl⟩ := List.append_of_mem hmem
  have hother := h.order before k t after rfl other hrefers
  rw [Entries.keys, List.map_append]
  exact List.mem_append_left _ hother

theorem mem_keys_of_transGen (h : Listed declared types) {name other : String}
    (hname : name ∈ Entries.keys types) (hrefers : Relation.TransGen declared.Refers name other) :
    other ∈ Entries.keys types := by
  induction hrefers with
  | single hstep => exact h.closed hname hstep
  | tail _ hstep ih => exact h.closed ih hstep

/-- No made type leads back to itself: it would be among those made before it. -/
theorem acyclic (h : Listed declared types) : ∀ name ∈ Entries.keys types,
    ¬ Relation.TransGen declared.Refers name name := by
  induction h with
  | nil =>
    intro name hname
    cases hname
  | @snoc types type fields kinds listed new declares means ih =>
    intro name hname hcycle
    rw [keys_snoc] at hname
    rcases List.mem_append.mp hname with hbefore | hlast
    · exact ih name hbefore hcycle
    · rw [List.mem_singleton.mp hlast] at hcycle
      have hall : Listed declared (types ++ [(type, RecordType.ofFields type kinds)]) :=
        .snoc listed new declares means
      have hfirst {other : String} (hrefers : declared.Refers type other) :
          other ∈ Entries.keys types := hall.order types type _ [] rfl other hrefers
      cases hcycle using Relation.TransGen.head_induction_on with
      | single hstep => exact new (hfirst hstep)
      | head hstep hrest => exact new (listed.mem_keys_of_transGen (hfirst hstep) hrest)

theorem readable (h : Listed declared types) : ∀ name ∈ Entries.keys types,
    ∃ fields, Entries.get? name declared = some fields ∧
      ∀ e ∈ fields, ∃ form, Kind.Form.read? e.2 = some form := by
  induction h with
  | nil =>
    intro name hname
    cases hname
  | @snoc types type fields kinds _ _ declares means ih =>
    intro name hname
    rw [keys_snoc] at hname
    rcases List.mem_append.mp hname with hbefore | hlast
    · exact ih name hbefore
    · rw [List.mem_singleton.mp hlast]
      refine ⟨fields, declares, fun e he => ?_⟩
      obtain ⟨form, hform, -⟩ := form_of_means means he
      exact ⟨form, hform⟩

/-- A made type has the declared fields, if none is declared twice. -/
theorem type_of_mem (hd : declared.Distinct) (h : Listed declared types) :
    ∀ name t, (name, t) ∈ types → t.name = name ∧
      ∃ fields, Entries.get? name declared = some fields ∧
        List.Forall₂ (FieldMeans types) fields t.fields := by
  induction h with
  | nil =>
    intro name t hmem
    cases hmem
  | @snoc types type fields kinds _ _ declares means ih =>
    intro name t hmem
    rcases List.mem_append.mp hmem with hbefore | hlast
    · obtain ⟨hname, fields', hfields', hmeans⟩ := ih name t hbefore
      exact ⟨hname, fields', hfields', forall₂_means_append hmeans⟩
    · cases List.mem_singleton.mp hlast
      have hkinds : Entries.Distinct kinds := by
        unfold Entries.Distinct
        rw [keys_eq_of_means means]
        exact hd.fields _ (Entries.mem_of_get? declares)
      refine ⟨rfl, fields, declares, ?_⟩
      rw [RecordType.ofFields, Entries.ofList_of_distinct hkinds]
      exact forall₂_means_append means

/-- Types that are listed, with all that are declared among them, describe the declared ones. -/
theorem describes (hd : declared.Distinct) (h : Listed declared types)
    (hall : ∀ name, name ∈ Entries.keys types ↔ name ∈ Entries.keys declared) :
    Describes declared types where
  once := (List.perm_ext_iff_of_nodup h.distinct hd.types).mpr hall
  type := h.type_of_mem hd
  order := h.order

/-- Declared types that are all listed can be made. -/
theorem makeable (hd : declared.Distinct) (h : Listed declared types)
    (hall : ∀ name ∈ Entries.keys declared, name ∈ Entries.keys types)
    (honly : ∀ name ∈ Entries.keys types, name ∈ Entries.keys declared) :
    declared.Makeable where
  readable type fields hmem := by
    have htype : type ∈ Entries.keys declared := List.mem_map_of_mem hmem
    obtain ⟨fields', hfields', hread⟩ := h.readable type (hall type htype)
    rw [Entries.get?_of_mem hd.types hmem] at hfields'
    cases hfields'
    exact hread
  known _ _ hrefers := honly _ (h.closed (hall _ hrefers.mem_keys) hrefers)
  acyclic type hcycle := by
    have htype : type ∈ Entries.keys declared := by
      cases hcycle using Relation.TransGen.head_induction_on with
      | single hstep => exact hstep.mem_keys
      | head hstep _ => exact hstep.mem_keys
    exact h.acyclic type (hall type htype) hcycle

end Listed

end Schema

end Polydoc
