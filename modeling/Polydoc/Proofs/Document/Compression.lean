/-
  Proofs/Document/Compression.lean --- what the mark of compression at the end of a name does to
  the reading of a file.

  The mark does not count for the format, in whatever letter case it is written.  Only in lower
  case does it make the reader decompress the file: elsewhere the compressed octets are taken for
  the text itself, and compressed octets are never text.
-/
import Mathlib.Data.List.Infix
import Polydoc.Document.Reader
import Polydoc.Proofs.Text.Lowercase
import Polydoc.Proofs.Text.Utf8

set_option autoImplicit false

namespace Polydoc.Document

open Text

/-! ## Names with and without the mark -/

/-- Whether an ending of a name is the mark of compression, in whatever letter case. -/
def IsMark (g : String) : Prop := lowercase g = ".gz"

instance (g : String) : Decidable (IsMark g) := inferInstanceAs (Decidable (lowercase g = ".gz"))

/-- What follows the last slash of a path. -/
def lastPart (path : List Char) : List Char := (path.splitOn '/').getLastD []

/-- A path that does not end with a slash, and whose last component does not end with the mark of
compression in any letter case. -/
structure Unmarked (path : String) : Prop where
  named : lastPart path.toList ≠ []
  unmarked : ∀ part ∈ (components path).getLast?, ∀ g ∈ part.tails, ¬ IsMark (String.ofList g)

theorem isMark_iff {g : String} : IsMark g ↔ fold g.toList = ['.', 'g', 'z'] := by
  rw [← map_lowercase, map_usualSigma_eq_iff (by decide), IsMark, ← String.toList_inj]
  rfl

/-- A mark is a full stop and two characters that are neither full stops nor slashes. -/
theorem exists_of_fold {g : List Char} (h : fold g = ['.', 'g', 'z']) :
    ∃ x y, g = ['.', x, y] ∧ (x ≠ '.' ∧ x ≠ '/') ∧ (y ≠ '.' ∧ y ≠ '/') := by
  obtain ⟨c, g, rfl, hc, h⟩ := fold_eq_cons (by decide) h
  obtain ⟨x, g, rfl, hx, h⟩ := fold_eq_cons (by decide) h
  obtain ⟨y, g, rfl, hy, h⟩ := fold_eq_cons (by decide) h
  rw [eq_stop_of_foldChar hc, eq_nil_of_fold h]
  refine ⟨x, y, rfl, ⟨?_, ?_⟩, ?_, ?_⟩ <;> rintro rfl
  · exact absurd hx (by decide)
  · exact absurd hx (by decide)
  · exact absurd hy (by decide)
  · exact absurd hy (by decide)

/-! ## Components -/

/-- Characters behind a path that are no slashes belong to its last part. -/
theorem splitOn_append {g : List Char} (hg : '/' ∉ g) (path : List Char) :
    ∃ front last, path.splitOn '/' = front ++ [last] ∧
      (path ++ g).splitOn '/' = front ++ [last ++ g] := by
  induction path with
  | nil =>
    refine ⟨[], [], List.splitOn_nil _, ?_⟩
    exact List.splitOnP_eq_singleton fun x hx => by
      rw [beq_eq_false_iff_ne]
      rintro rfl
      exact hg hx
  | cons c path ih =>
    obtain ⟨front, last, hpath, happ⟩ := ih
    unfold List.splitOn at hpath happ ⊢
    rw [List.cons_append, List.splitOnP_cons_eq_if_modifyHead, List.splitOnP_cons_eq_if_modifyHead,
      hpath, happ]
    by_cases hc : c == '/'
    · rw [if_pos hc, if_pos hc]
      exact ⟨[] :: front, last, rfl, rfl⟩
    · rw [if_neg hc, if_neg hc]
      cases front with
      | nil => exact ⟨[], c :: last, rfl, rfl⟩
      | cons first front => exact ⟨(c :: first) :: front, last, rfl, rfl⟩

theorem lastPart_append {g : List Char} (hg : '/' ∉ g) (path : List Char) :
    lastPart (path ++ g) = lastPart path ++ g := by
  obtain ⟨front, last, hpath, happ⟩ := splitOn_append hg path
  rw [lastPart, lastPart, hpath, happ, List.getLastD_concat, List.getLastD_concat]

/-- The last component is what follows the last slash, unless that is empty or a full stop. -/
theorem getLast?_components {path : String} (hempty : lastPart path.toList ≠ [])
    (hstop : lastPart path.toList ≠ ['.']) :
    (components path).getLast? = some (lastPart path.toList) := by
  obtain ⟨front, last, hpath, -⟩ := splitOn_append List.not_mem_nil path.toList
  rw [lastPart, hpath, List.getLastD_concat] at hempty hstop
  have hlast : (!last.isEmpty && decide (last ≠ ['.'])) = true := by
    simp [hempty, hstop]
  rw [components, lastPart, hpath, List.getLastD_concat, List.filter_append,
    List.filter_cons_of_pos (by exact hlast), List.filter_nil, List.getLast?_concat]

/-! ## Extensions -/

/-- A name ends with its extension and the full stop in front of it. -/
theorem isSuffix_of_extension? {name ending : List Char} (h : extension? name = some ending) :
    '.' :: ending <:+ name := by
  have hsplit := List.takeWhile_append_dropWhile (p := (· ≠ '.')) (l := name.reverse)
  unfold extension? at h
  dsimp only at h
  split at h
  · next hlong =>
    rw [Option.some.injEq] at h
    have hhead := List.head?_dropWhile_not (· ≠ '.') name.reverse
    cases hrest : name.reverse.dropWhile (· ≠ '.') with
    | nil =>
      rw [hrest, List.append_nil] at hsplit
      rw [hsplit, List.reverse_reverse] at hlong
      omega
    | cons c rest =>
      rw [hrest, List.head?_cons] at hhead
      have hc : c = '.' := by simpa using hhead
      have hname := congrArg List.reverse hsplit
      rw [hrest, hc, List.reverse_append, h, List.reverse_cons, List.reverse_reverse,
        List.append_assoc, List.singleton_append] at hname
      exact ⟨rest.reverse, hname⟩
  · cases h

theorem extension?_append {name : List Char} {x y : Char} (hname : name ≠ []) (hx : x ≠ '.')
    (hy : y ≠ '.') : extension? (name ++ ['.', x, y]) = some [x, y] := by
  have hpos := List.length_pos_iff.mpr hname
  have hending : ((name ++ ['.', x, y]).reverse.takeWhile (· ≠ '.')).reverse = [x, y] := by
    simp [hx, hy]
  have hlength : (name ++ ['.', x, y]).length = name.length + 3 := List.length_append
  rw [extension?, hending, if_pos]
  rw [hlength, List.length_cons, List.length_singleton]
  omega

/-! ## Formats and marks -/

/-- An ending without sigmas is at the end of the lower-case form whatever sigmas it has. -/
theorem endsWith_map {cs s : List Char} (hs : s.all (!isSigma ·)) :
    endsWith (cs.map usualSigma) s = endsWith cs s := by
  rw [endsWith, endsWith, Bool.eq_iff_iff, List.isSuffixOf_iff_suffix, List.isSuffixOf_iff_suffix,
    isSuffix_map_usualSigma_iff hs]

theorem withoutSuffix_map {cs s : List Char} (hs : s.all (!isSigma ·)) :
    withoutSuffix (cs.map usualSigma) s = (withoutSuffix cs s).map usualSigma := by
  rw [withoutSuffix, withoutSuffix, endsWith_map hs, List.length_map, ← List.map_take]
  cases endsWith cs s <;> rfl

/-- The format goes by the lower-case form with one small sigma. -/
theorem ofPath_eq (path : String) :
    Format.ofPath path =
      let base := withoutSuffix (fold path.toList) ".gz".toList
      if endsWith base ".yaml".toList || endsWith base ".yml".toList then .yaml else .json := by
  rw [Format.ofPath, ← map_lowercase, withoutSuffix_map (by decide)]
  dsimp only
  rw [endsWith_map (by decide), endsWith_map (by decide)]

variable {b g : String}

/-- An ending of a component that is behind no slash is at the end of the path. -/
theorem Unmarked.not_isSuffix (hb : Unmarked b) {mark : List Char}
    (hmark : fold mark = ['.', 'g', 'z']) : ¬ mark <:+ b.toList := by
  rintro ⟨front, hfront⟩
  obtain ⟨x, y, rfl, hx, hy⟩ := exists_of_fold hmark
  have hslash : '/' ∉ ['.', x, y] := by simp [hx.2.symm, hy.2.symm]
  have hlast : lastPart b.toList = lastPart front ++ ['.', x, y] := by
    rw [← hfront, lastPart_append hslash]
  have hstop : lastPart b.toList ≠ ['.'] := by
    intro h
    have hlength := congrArg List.length (hlast.symm.trans h)
    simp at hlength
  refine hb.unmarked _ (getLast?_components hb.named hstop) ['.', x, y] ?_ ?_
  · rw [List.mem_tails, hlast]
    exact List.suffix_append _ _
  · rw [isMark_iff, String.toList_ofList, hmark]

/-- The format of a file does not change with the mark of compression. -/
theorem ofPath_append (hb : Unmarked b) (hg : IsMark g) :
    Format.ofPath (b ++ g) = Format.ofPath b := by
  have hplain : endsWith (fold b.toList) ['.', 'g', 'z'] = false := by
    rw [endsWith, Bool.eq_false_iff, ne_eq, List.isSuffixOf_iff_suffix]
    intro h
    obtain ⟨mark, hmark, hfold⟩ := exists_isSuffix_of_fold (by decide) h
    exact hb.not_isSuffix hfold hmark
  have hmarked : endsWith (fold b.toList ++ ['.', 'g', 'z']) ['.', 'g', 'z'] = true := by
    rw [endsWith, List.isSuffixOf_iff_suffix]
    exact List.suffix_append _ _
  rw [ofPath_eq, ofPath_eq, String.toList_append, fold_append, isMark_iff.mp hg]
  have hgz : ".gz".toList = ['.', 'g', 'z'] := rfl
  simp only [hgz, withoutSuffix, hplain, hmarked, List.length_append, Nat.add_sub_cancel,
    List.take_left]
  rfl

/-- An unmarked path is not that of a compressed file. -/
theorem Unmarked.isCompressed_eq (hb : Unmarked b) : isCompressed b = false := by
  rw [isCompressed, decide_eq_false_iff_not, Option.bind_eq_some_iff]
  rintro ⟨name, hname, hextension⟩
  rw [fileName?, Option.filter_eq_some_iff] at hname
  refine hb.unmarked name hname.1 ['.', 'g', 'z'] ?_ (by decide +kernel)
  rw [List.mem_tails]
  exact isSuffix_of_extension? hextension

/-- With a mark it is, if the mark is in lower case. -/
theorem isCompressed_append (hb : Unmarked b) (hg : IsMark g) :
    isCompressed (b ++ g) = decide (g = ".gz") := by
  obtain ⟨x, y, hxy, hx, hy⟩ := exists_of_fold (isMark_iff.mp hg)
  have hslash : '/' ∉ g.toList := by simp [hxy, hx.2.symm, hy.2.symm]
  have hlast : lastPart (b ++ g).toList = lastPart b.toList ++ ['.', x, y] := by
    rw [String.toList_append, lastPart_append hslash, hxy]
  have hne {part : List Char} (hpart : part.length < 3) : lastPart (b ++ g).toList ≠ part := by
    rintro rfl
    rw [hlast, List.length_append] at hpart
    exact absurd hpart (Nat.not_lt.mpr (Nat.le_add_left _ _))
  have hname : fileName? (b ++ g) = some (lastPart b.toList ++ ['.', x, y]) := by
    rw [fileName?, getLast?_components (hne (by decide)) (hne (by decide)), ← hlast,
      Option.filter_some, if_pos (decide_eq_true (hne (by decide)))]
  rw [isCompressed, hname, Option.bind_some, extension?_append hb.named hx.1 hy.1]
  have hgz : ".gz".toList = '.' :: "gz".toList := rfl
  simp only [← String.toList_inj, hxy, hgz, Option.some.injEq, List.cons.injEq, true_and]

/-! ## Compressed octets are no text -/

theorem starts_of_decompress? {octets out : List UInt8} (h : Gzip.decompress? octets = some out) :
    ∃ rest, octets = 0x1F :: 0x8B :: rest := by
  obtain ⟨body, hbody, -⟩ := Option.bind_eq_some_iff.mp h
  unfold Gzip.skipHeader? at hbody
  dsimp only at hbody
  split at hbody
  · cases hbody
  · next hheader =>
    have hstart : (octets.take 10).take 3 = [0x1F, 0x8B, 8] := by
      by_contra hne
      exact hheader (.inr (.inl hne))
    rw [List.take_take] at hstart
    have hoctets := List.take_append_drop 3 octets
    rw [show min 3 10 = 3 from rfl] at hstart
    rw [hstart] at hoctets
    exact ⟨8 :: octets.drop 3, hoctets.symm⟩

theorem textOf?_compressed {octets out : List UInt8} (h : Gzip.decompress? octets = some out) :
    textOf? octets = none := by
  obtain ⟨rest, rfl⟩ := starts_of_decompress? h
  rw [textOf?, decode?, decodeOnto.eq_def]
  dsimp only
  rw [if_pos (by decide), decodeOnto.eq_def]
  rfl

theorem textOf?_encode (t : String) : textOf? (encode t.toList) = some t := by
  rw [textOf?, decode?_encode, Option.map_some, String.ofList_toList]

/-! ## Loading -/

/-- An unmarked file is read as the text that it holds, in the format of its name. -/
theorem load_unmarked (hb : Unmarked b) (t : String) :
    load b (.ok (encode t.toList)) = parse (Format.ofPath b) t := by
  rw [load, hb.isCompressed_eq, textOf?_encode, if_neg Bool.false_ne_true, Option.elim_some]

/-- **Compressing a file and marking its name in lower case does not change how it is read; with
the mark in another letter case, which the format takes no notice of, it cannot be read.** -/
theorem load_marked (hb : Unmarked b) (hg : IsMark g) {octets : List UInt8} {t : String}
    (hoctets : Gzip.decompress? octets = some (encode t.toList)) :
    load (b ++ g) (.ok octets) =
      if g = ".gz" then load b (.ok (encode t.toList))
      else .error (.unreadable (b ++ g) notTextReason) := by
  have htext : compressedText? octets = some t := by
    rw [compressedText?, hoctets, Option.bind_some, textOf?_encode]
  rw [load_unmarked hb, load, isCompressed_append hb hg, ofPath_append hb hg, htext,
    textOf?_compressed hoctets]
  by_cases hlower : g = ".gz"
  · rw [if_pos hlower, if_pos (decide_eq_true hlower), Option.elim_some]
  · rw [if_neg hlower, if_neg (by simpa using hlower), Option.elim_none]

/-- The octets of `[1]`, compressed. -/
def compressedList : List UInt8 :=
  [0x1F, 0x8B, 0x08, 0x00, 0x00, 0x00, 0x00, 0x00, 0x00, 0xFF, 0x8B, 0x36, 0x8C, 0x05, 0x00, 0xB8,
   0x32, 0x2F, 0x4C, 0x03, 0x00, 0x00, 0x00]

theorem decompress?_compressedList :
    Gzip.decompress? compressedList = some (encode "[1]".toList) := by
  decide +kernel

theorem unmarked_shoes : Unmarked "shoes.json" :=
  ⟨by decide +kernel, by decide +kernel⟩

/-- The text `[1]` in a file `shoes.json`, and compressed in a file `shoes.json.gz`. -/
theorem load_marked_shoes :
    load ("shoes.json" ++ ".gz") (.ok compressedList) =
      load "shoes.json" (.ok (encode "[1]".toList)) :=
  load_marked unmarked_shoes (by decide +kernel) decompress?_compressedList

/-- Compressed in a file `shoes.json.GZ` the text cannot be read: that file counts as JSON, as
`shoes.json` does, but not as compressed. -/
theorem upper_case_mark_unreadable :
    (∃ n, load "shoes.json" (.ok (encode "[1]".toList)) = .ok n) ∧
      Format.ofPath ("shoes.json" ++ ".GZ") = Format.ofPath "shoes.json" ∧
      Gzip.decompress? compressedList = some (encode "[1]".toList) ∧
      load ("shoes.json" ++ ".GZ") (.ok compressedList) =
        .error (.unreadable "shoes.json.GZ" notTextReason) := by
  have hmark : IsMark ".GZ" := by decide +kernel
  have hformat : Format.ofPath "shoes.json" = .json := by decide +kernel
  refine ⟨?_, ofPath_append unmarked_shoes hmark, decompress?_compressedList, ?_⟩
  · rw [load_unmarked unmarked_shoes, hformat]
    exact ⟨_, rfl⟩
  · rw [load, isCompressed_append unmarked_shoes hmark,
      textOf?_compressed decompress?_compressedList, if_neg (by decide), Option.elim_none]
    rfl

end Polydoc.Document
