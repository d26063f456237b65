/-
  Proofs/Schema/Recompilation.lean --- made types are written out and made again.

  The name of a record type in a made type has been read from a written kind, so it is one that can
  be written.  Hence the spellings of a made type's kinds mean the same types again, and the types
  that are listed for what is written out are those that were there, in some order.
-/
import Mathlib.Data.List.Nodup
import Polydoc.Proofs.Kind.Written
import Polydoc.Proofs.Schema.Retention

set_option autoImplicit false

namespace Polydoc.Schema

open Kind (PlainName Spells)

/-- A written field has the name of another and a spelling of its kind. -/
def FieldSpells (written : String × String) (field : String × Kind) : Prop :=
  written.1 = field.1 ∧ field.2.Spells written.2.toList

/-- Declared types that write out made ones: the types in any order, and for each its fields in
their order, every kind in some spelling. -/
structure WritesOut (types : Built) (written : Declared) : Prop where
  names : (Entries.keys written).Perm (Entries.keys types)
  fields : ∀ name t, (name, t) ∈ types → ∃ fields, Entries.get? name written = some fields ∧
    List.Forall₂ FieldSpells fields t.fields

/-- The fields of a type with the written forms of their kinds. -/
def writtenFields (t : RecordType) : List (String × String) :=
  t.fields.map fun field => (field.1, field.2.text)

/-- Made types as they are declared, with the written forms of all kinds. -/
def writtenOut (types : Built) : Declared :=
  types.map fun entry => (entry.1, writtenFields entry.2)

section Written

variable {types others : Built} {declared written : Declared}

theorem forall₂_writtenFields (t : RecordType) :
    List.Forall₂ FieldSpells (writtenFields t) t.fields := by
  unfold writtenFields
  induction t.fields with
  | nil => exact .nil
  | cons field rest ih => exact .cons ⟨rfl, .text field.2⟩ ih

theorem keys_eq_of_spells {fields : List (String × String)} {kinds : List (String × Kind)}
    (h : List.Forall₂ FieldSpells fields kinds) : Entries.keys fields = Entries.keys kinds := by
  induction h with
  | nil => rfl
  | cons hspells _ ih =>
    rw [Entries.keys, Entries.keys, List.map_cons, List.map_cons, hspells.1]
    exact congrArg _ ih

theorem get?_writtenOut (name : String) (types : Built) :
    Entries.get? name (writtenOut types) = (Entries.get? name types).map writtenFields := by
  induction types with
  | nil => rfl
  | cons entry rest ih =>
    obtain ⟨k, t⟩ := entry
    rw [writtenOut, List.map_cons, Entries.get?, Entries.get?]
    split
    · rfl
    · exact ih

theorem writesOut_writtenOut (hd : Entries.Distinct types) :
    WritesOut types (writtenOut types) where
  names := by
    refine .of_eq ?_
    rw [writtenOut, Entries.keys, List.map_map]
    rfl
  fields name t hmem := by
    refine ⟨writtenFields t, ?_, forall₂_writtenFields t⟩
    rw [get?_writtenOut, Entries.get?_of_mem hd hmem]
    rfl

/-! ## What is written out means the same -/

/-- The form that a kind is filled from is the form of the kind. -/
theorem form_of_filled (hclosed : Closed types) {form : Kind.Form} {kind : Kind}
    (h : form.filled types = some kind) : kind.form = form := by
  induction form generalizing kind with
  | sequence item ih =>
    obtain ⟨k, hk, rfl⟩ := Option.map_eq_some_iff.mp h
    rw [Kind.form, ih hk]
  | optional inner ih =>
    obtain ⟨k, hk, rfl⟩ := Option.map_eq_some_iff.mp h
    rw [Kind.form, ih hk]
  | named type =>
    obtain ⟨t, ht, rfl⟩ := Option.map_eq_some_iff.mp h
    rw [Kind.ofType, Kind.form, hclosed.named ht]
  | _ =>
    cases h
    rfl

/-- A field that is described by a written one is described by each spelling of it. -/
theorem fieldMeans_of_spells (hclosed : Closed types) {before after : String × String}
    {field : String × Kind} (hbefore : FieldMeans types before field)
    (hafter : FieldSpells after field) : FieldMeans types after field := by
  obtain ⟨-, form, hread, hfilled⟩ := hbefore
  have hform : field.2.form = form := form_of_filled hclosed hfilled
  have hplain : ∀ name ∈ field.2.form.names, PlainName name := by
    rw [hform]
    exact Kind.Form.plainName_of_ofChars? hread
  exact ⟨hafter.1.symm, form, hform ▸ hafter.2.ofChars?_eq hplain, hfilled⟩

theorem forall₂_means_of_spells (hclosed : Closed types) {fields : List (String × String)}
    {kinds : List (String × Kind)}
    (hmeant : ∀ field ∈ kinds, ∃ before, FieldMeans types before field)
    (h : List.Forall₂ FieldSpells fields kinds) : List.Forall₂ (FieldMeans types) fields kinds := by
  induction h with
  | nil => exact .nil
  | cons hspells _ ih =>
    obtain ⟨before, hbefore⟩ := hmeant _ List.mem_cons_self
    exact .cons (fieldMeans_of_spells hclosed hbefore hspells)
      (ih fun field hfield => hmeant field (List.mem_cons_of_mem _ hfield))

/-- What writes made types out lists them as they are. -/
theorem Listed.rewritten (h : Listed declared types)
    (hout : ∀ name t, (name, t) ∈ types → ∃ fields, Entries.get? name written = some fields ∧
      List.Forall₂ FieldSpells fields t.fields) : Listed written types := by
  induction h with
  | nil => exact .nil
  | @snoc types type fields kinds listed new _ means ih =>
    obtain ⟨fields', declares', hspells⟩ := hout type _ (List.mem_append_right _ (.head _))
    have hmeant (field : String × Kind) (hfield : field ∈ Entries.ofList kinds) :
        ∃ before, FieldMeans types before field := by
      obtain ⟨before, -, hbefore⟩ := exists_left_of_mem means (Entries.mem_of_mem_ofList hfield)
      exact ⟨before, hbefore⟩
    have hmeans : List.Forall₂ (FieldMeans types) fields' (Entries.ofList kinds) :=
      forall₂_means_of_spells listed.closed_types hmeant hspells
    have hkinds : RecordType.ofFields type (Entries.ofList kinds) =
        RecordType.ofFields type kinds := by
      rw [RecordType.ofFields, RecordType.ofFields,
        Entries.ofList_of_distinct (Entries.distinct_ofList kinds)]
    have hlisted : Listed written types :=
      ih fun name t hmem => hout name t (List.mem_append_left _ hmem)
    exact hkinds ▸ hlisted.snoc new declares' hmeans

/-! ## Only one list of types -/

theorem kinds_unique {fields : List (String × String)} {kinds kinds' : List (String × Kind)}
    (kept : ∀ name t, Entries.get? name types = some t → Entries.get? name others = some t)
    (h : List.Forall₂ (FieldMeans types) fields kinds)
    (h' : List.Forall₂ (FieldMeans others) fields kinds') : kinds = kinds' := by
  induction h generalizing kinds' with
  | nil =>
    cases h'
    rfl
  | @cons written field _ _ hmeans _ ih =>
    cases h' with
    | @cons _ field' _ _ hmeans' hrest =>
      obtain ⟨hname, form, hform, hfilled⟩ := hmeans
      obtain ⟨hname', form', hform', hfilled'⟩ := hmeans'
      rw [hform] at hform'
      cases hform'
      rw [filled_mono kept hfilled] at hfilled'
      have hfield : field = field' := Prod.ext (hname.trans hname'.symm) (Option.some.inj hfilled')
      rw [hfield, ih hrest]

/-- A type that is listed is in every other list for the same declared types that has its name. -/
theorem Listed.get?_of_get? (hd : declared.Distinct) (h : Listed declared types)
    (h' : Listed declared others) (hall : ∀ name ∈ Entries.keys types, name ∈ Entries.keys others) :
    ∀ name t, Entries.get? name types = some t → Entries.get? name others = some t := by
  induction h with
  | nil => exact fun name t ht => absurd ht (Option.some_ne_none t).symm
  | @snoc types type fields kinds listed new declares means ih =>
    rw [Listed.keys_snoc] at hall
    have kept := ih fun name hname => hall name (List.mem_append_left _ hname)
    intro name t ht
    rcases List.mem_append.mp (Entries.mem_of_get? ht) with hbefore | hlast
    · exact kept name t (Entries.get?_of_mem listed.distinct hbefore)
    · -- the last type has been made from types that are in both lists
      cases List.mem_singleton.mp hlast
      obtain ⟨t', ht'⟩ := Entries.exists_get?_of_mem (hall type (by simp))
      obtain ⟨hname, fields', declares', means'⟩ :=
        h'.type_of_mem hd type t' (Entries.mem_of_get? ht')
      rw [declares] at declares'
      cases declares'
      have hkinds : Entries.Distinct kinds := by
        unfold Entries.Distinct
        rw [keys_eq_of_means means]
        exact hd.fields _ (Entries.mem_of_get? declares)
      rw [ht', RecordType.ofFields, Entries.ofList_of_distinct hkinds,
        kinds_unique kept means means', ← hname]

/-- Types that are listed for the same declared types, with the same names, are the same. -/
theorem Listed.perm (hd : declared.Distinct) (h : Listed declared types)
    (h' : Listed declared others)
    (hall : ∀ name, name ∈ Entries.keys others ↔ name ∈ Entries.keys types) :
    others.Perm types := by
  have hnodup {types : Built} (h : Listed declared types) : types.Nodup :=
    List.Nodup.of_map Prod.fst h.distinct
  have hmem {types others : Built} (h : Listed declared types) (h' : Listed declared others)
      (hall : ∀ name ∈ Entries.keys types, name ∈ Entries.keys others)
      {entry : String × RecordType} (hentry : entry ∈ types) : entry ∈ others :=
    Entries.mem_of_get?
      (h.get?_of_get? hd h' hall entry.1 entry.2 (Entries.get?_of_mem h.distinct hentry))
  rw [List.perm_ext_iff_of_nodup (hnodup h') (hnodup h)]
  exact fun entry => ⟨hmem h' h fun name => (hall name).mp, hmem h h' fun name => (hall name).mpr⟩

/-! ## Making the types again -/

theorem WritesOut.distinct (h : WritesOut types written) (hdistinct : Entries.Distinct types)
    (hclosed : Closed types) : written.Distinct where
  types := h.names.nodup_iff.mpr hdistinct
  fields := by
    rintro ⟨name, fields⟩ hmem
    have hname : name ∈ Entries.keys types := h.names.mem_iff.mp (List.mem_map_of_mem hmem)
    obtain ⟨t, ht⟩ := Entries.exists_get?_of_mem hname
    obtain ⟨fields', hfields', hspells⟩ := h.fields name t (Entries.mem_of_get? ht)
    rw [Entries.get?_of_mem (h.names.nodup_iff.mpr hdistinct) hmem] at hfields'
    cases hfields'
    unfold Entries.Distinct
    rw [keys_eq_of_spells hspells]
    exact hclosed.once ht

theorem listed_of_typesOf (h : typesOf declared = .ok types) : Listed declared types := by
  rcases typesOf_cases declared with ⟨types', hok, hlisted, -⟩ | ⟨e, herror, -⟩
  · rw [h] at hok
    cases hok
    exact hlisted
  · rw [h] at herror
    cases herror

/-- Made types that are written out are made again. -/
theorem typesOf_of_writesOut (h : typesOf declared = .ok types) (hout : WritesOut types written) :
    ∃ again, typesOf written = .ok again ∧ again.Perm types := by
  have hlisted := listed_of_typesOf h
  have hd : written.Distinct := hout.distinct hlisted.distinct hlisted.closed_types
  have hwritten : Listed written types := hlisted.rewritten hout.fields
  have hnames (name : String) : name ∈ Entries.keys types ↔ name ∈ Entries.keys written :=
    hout.names.mem_iff.symm
  have hmakeable : written.Makeable :=
    hwritten.makeable hd (fun name => (hnames name).mpr) fun name => (hnames name).mp
  rcases typesOf_cases written with ⟨again, hagain, hlisted', hall⟩ | ⟨e, -, hexplains⟩
  · exact ⟨again, hagain,
      hwritten.perm hd hlisted' fun name => (hall name).trans (hnames name).symm⟩
  · exact absurd hmakeable hexplains.not_makeable

end Written

/-- **Kinds and their texts correspond.**  The reader of kinds ends on every text: with each call it
takes off a layer, and no sequence of calls goes on forever.  A kind whose record types have plain
names is read back from its written form, with blanks added around any part of it, as its structure
with each record type by name.  So made types can be written out, in any order and with any such
blanks, and the same types are made again. -/
theorem kinds_correspond :
    (WellFounded Kind.Form.Calls ∧ ∀ cs,
        (∃ inner layer, Kind.Form.Calls inner cs ∧
          Kind.Form.ofChars? cs = (Kind.Form.ofChars? inner).map layer) ∨
        Kind.Form.ofChars? cs = Kind.Form.ofWord? (Text.trim cs)) ∧
      (∀ kind text, (∀ name ∈ kind.form.names, PlainName name) → Spells kind text.toList →
        Kind.Form.read? text = some kind.form) ∧
      ∀ declared types, typesOf declared = .ok types → WritesOut types (writtenOut types) ∧
        ∀ written, WritesOut types written →
          ∃ again, typesOf written = .ok again ∧ again.Perm types := by
  refine ⟨⟨Kind.Form.wellFounded_calls, Kind.Form.ofChars?_step⟩,
    fun kind text hplain hspells => hspells.ofChars?_eq hplain, fun declared types h => ⟨?_,
      fun written hout => typesOf_of_writesOut h hout⟩⟩
  exact writesOut_writtenOut (listed_of_typesOf h).distinct

/-- A name may have a bracket at one end, and what stands for it may have blanks in it. -/
theorem kinds_correspond_stable :
    let horse : RecordType := ⟨"[horse", [("hands", .integer)]⟩
    let stable : RecordType := ⟨"Stable", [("horses", .optional (.sequence (.ofType horse)))]⟩
    let types : Built := [("[horse", horse), ("Stable", stable)]
    let declared : Declared := [("Stable", [("horses", "[ [horse ]\t?")]),
      ("[horse", [("hands", "integer")])]
    let written : Declared := [("[horse", [("hands", "integer")]),
      ("Stable", [("horses", "[[horse]?")])]
    Kind.Form.read? " [[horse ] ?" = some (.optional (.sequence (.named "[horse"))) ∧
      typesOf declared = .ok types ∧ writtenOut types = written ∧
      ∃ again, typesOf written = .ok again ∧ again.Perm types := by
  intro horse stable types declared written
  have hplain : PlainName "[horse" := by
    refine ⟨by decide, fun c hc => ?_, fun c hc => ?_, by decide, by decide, by decide⟩
    · cases hc
      decide
    · cases hc
      decide
  have htypes : typesOf declared = .ok types := by decide +kernel
  have hwritten : writtenOut types = written := by decide +kernel
  obtain ⟨-, hread, hmade⟩ := kinds_correspond
  have hspells : Spells (.optional (.sequence (.ofType horse))) " [[horse ] ?".toList := by
    have hblank : Text.Blanks [' '] := by simp [Text.Blanks, Text.isBlank]
    have htext : " [[horse ] ?".toList =
        [' '] ++ ('[' :: ([] ++ "[horse".toList ++ [' ']) ++ [']']) ++ [' '] ++ ['?'] := by decide
    rw [htext]
    have hname : Spells (.ofType horse) "[horse".toList := .text (.ofType horse)
    have hitem := hname.padded Text.blanks_nil hblank
    exact (hitem.sequence.padded hblank hblank).optional
  refine ⟨hread _ _ (fun name hname => ?_) hspells, htypes, hwritten, ?_⟩
  · rw [List.mem_singleton.mp hname]
    exact hplain
  · exact hwritten ▸ (hmade declared types htypes).2 _ (hmade declared types htypes).1

end Polydoc.Schema
