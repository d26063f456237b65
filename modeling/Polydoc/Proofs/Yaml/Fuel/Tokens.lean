/-
  Proofs/Yaml/Fuel/Tokens.lean --- cutting a YAML text into tokens never runs out of fuel.

  Every step of the scanner takes a character at least, or it meets the end of the text and is the
  last one.  So one unit more than there are characters is enough.
-/
import Polydoc.Proofs.Yaml.Fuel.Scalars
import Polydoc.Yaml.Tokens

set_option autoImplicit false

namespace Polydoc

namespace Yaml

/-! ## Anchors, tags and directives -/

theorem anchorName_stops (c : Cursor) : Stops ((c.skip 1).left + 1) (anchorName c) := by
  unfold anchorName
  dsimp only
  have := Cursor.left_skip (c.skip 1) ((c.skip 1).rest.takeWhile isWordChar).length
  split
  · exact within_none
  · exact within_some (by omega)

/-- A handle has a `!` at least. -/
theorem tagHandle_stops (directive : Bool) (c : Cursor) :
    Stops c.left (tagHandle directive c) := by
  unfold tagHandle
  split
  · rename_i rest hrest
    have hleft := Cursor.left_of_rest hrest
    dsimp only
    generalize (rest.takeWhile isWordChar) = name
    have hname := Cursor.left_skip c (name.length + 1)
    split
    · have hmark := Cursor.left_skip (c.skip (name.length + 1)) 1
      exact within_some (by omega)
    · split
      · exact within_none
      · exact within_some (by omega)
  · exact within_none

theorem uriOctets_stops (enclosed : Bool) (fuel : Nat) (c : Cursor) (acc : List UInt8) :
    Stops (c.left + 1) (uriOctets enclosed fuel c acc) := by
  induction fuel generalizing c acc with
  | zero => exact within_none
  | succ fuel ih =>
    unfold uriOctets
    split
    · exact within_some (Nat.lt_succ_self _)
    · split
      · split
        · rename_i octets _
          have := Cursor.left_skip c (3 * octets.length)
          exact (ih _ _).mono (by omega)
        · exact within_none
      · split
        · have := Cursor.left_skip c 1
          exact (ih _ _).mono (by omega)
        · exact within_some (Nat.lt_succ_self _)

/-- An escaped character has an octet at least. -/
theorem length_of_uriEscape {cs : List Char} {octets : List UInt8}
    (h : uriEscape cs = some octets) : 0 < octets.length := by
  unfold uriEscape at h
  obtain ⟨lead, _, h⟩ := Option.bind_eq_some_iff.1 h
  obtain ⟨width, _, h⟩ := Option.bind_eq_some_iff.1 h
  obtain ⟨more, _, h⟩ := Option.bind_eq_some_iff.1 h
  cases h
  exact Nat.succ_pos _

theorem uriOctets_steady {enclosed : Bool} {fuel : Nat} {c : Cursor} {acc : List UInt8}
    (h : c.left + 1 ≤ fuel) :
    uriOctets enclosed (fuel + 1) c acc = uriOctets enclosed fuel c acc := by
  induction fuel generalizing c acc with
  | zero => exact absurd h (by omega)
  | succ fuel ih =>
    unfold uriOctets
    split
    · rfl
    · rename_i ch cs hrest
      have hleft := Cursor.left_of_rest hrest
      split
      · split
        · rename_i octets hescape
          have := length_of_uriEscape hescape
          have := Cursor.left_skip c (3 * octets.length)
          exact ih (by omega)
        · rfl
      · have := Cursor.left_skip c 1
        rw [ih (by omega)]

theorem uriOctets_suffices (enclosed : Bool) (c : Cursor) (acc : List UInt8) :
    Suffices (c.rest.length + 1) fun fuel => uriOctets enclosed fuel c acc :=
  suffices_of_succ fun _ hfuel => uriOctets_steady hfuel

theorem uri_stops (enclosed : Bool) (head : List Char) (c : Cursor) :
    Stops (c.left + 1) (uri enclosed head c) := by
  unfold uri
  refine Within.bind fun ⟨octets, c'⟩ hoctets => ?_
  have := uriOctets_stops _ _ _ _ octets c' hoctets
  dsimp only
  split
  · exact within_none
  · exact Within.bind fun text _ => within_some this

theorem verbatimTag_stops (c : Cursor) : Stops ((c.skip 2).left + 1) (verbatimTag c) := by
  unfold verbatimTag
  refine Within.bind fun ⟨suffix, c'⟩ hsuffix => ?_
  have := uri_stops _ _ _ suffix c' hsuffix
  have := Cursor.left_skip c' 1
  dsimp only
  split
  · exact within_some (by omega)
  · exact within_none

theorem shorthandTag_stops (c : Cursor) : Stops c.left (shorthandTag c) := by
  unfold shorthandTag
  refine Within.bind fun ⟨handle, c'⟩ hhandle => ?_
  have := tagHandle_stops _ _ handle c' hhandle
  dsimp only
  split
  · exact ((uri_stops _ _ c').map fun _ _ => rfl).mono (by omega)
  · exact ((uri_stops _ _ c').map fun _ _ => rfl).mono (by omega)

theorem tag_stops (flow : Bool) (c : Cursor) : Stops c.left (tag flow c) := by
  unfold tag
  refine Within.bind fun ⟨found, c'⟩ hfound => ?_
  have hc' : c'.left < c.left := by
    split at hfound
    · rename_i rest hrest
      have hleft := Cursor.left_of_rest hrest
      have hskip := Cursor.left_skip c 2
      have := verbatimTag_stops c found c' hfound
      simp only [List.length_cons] at hleft
      omega
    · exact shorthandTag_stops c found c' hfound
  dsimp only
  split
  · exact within_some hc'
  · exact within_none

theorem versionNumber_stops (c : Cursor) : Stops (c.left + 1) (versionNumber c) := by
  unfold versionNumber
  dsimp only
  have := Cursor.left_skip c (c.rest.takeWhile Char.isDigit).length
  split
  · exact within_none
  · exact within_some (by omega)

theorem versionDirective_stops (c : Cursor) : Stops (c.left + 1) (versionDirective c) := by
  unfold versionDirective
  refine Within.bind fun ⟨major, c'⟩ hmajor => ?_
  have := versionNumber_stops c major c' hmajor
  have := Cursor.left_skip c' 1
  dsimp only
  split
  · exact ((versionNumber_stops _).map fun _ _ => rfl).mono (by omega)
  · exact within_none

theorem tagDirective_stops (c : Cursor) : Stops (c.left + 1) (tagDirective c) := by
  unfold tagDirective
  refine Within.bind fun ⟨handle, c₁⟩ hhandle => ?_
  have := tagHandle_stops _ _ handle c₁ hhandle
  have := Cursor.left_skipWhile_le c₁ isBlank
  dsimp only
  split
  · refine Within.bind fun ⟨start, c₂⟩ hstart => ?_
    have := uri_stops _ _ _ start c₂ hstart
    dsimp only
    split
    · exact within_some (by omega)
    · exact within_none
  · exact within_none

theorem namedDirective_stops (name : List Char) (c : Cursor) :
    Stops (c.left + 1) (namedDirective name c) := by
  unfold namedDirective
  split
  · exact versionDirective_stops c
  · split
    · exact tagDirective_stops c
    · exact within_none

theorem directive_stops (c : Cursor) : Stops ((c.skip 1).left + 1) (directive c) := by
  unfold directive
  dsimp only
  generalize ((c.skip 1).rest.takeWhile isWordChar) = name
  have hname := Cursor.left_skip (c.skip 1) name.length
  have hblank := Cursor.left_skipWhile_le ((c.skip 1).skip name.length) isBlank
  split
  · exact within_none
  · refine Within.bind fun ⟨token, c₁⟩ htoken => ?_
    refine Within.bind fun c₂ hline => within_some ?_
    have := namedDirective_stops _ _ token c₁ htoken
    have := Cursor.left_of_pastLine? hline
    dsimp only at *
    omega

/-! ## Between tokens -/

namespace Scanner

theorem left_pastBlanks_le (s : Scanner) : s.pastBlanks.left ≤ s.cursor.left := by
  unfold pastBlanks
  dsimp only
  refine Nat.le_trans (Cursor.left_skipComment_le _) ?_
  refine Nat.le_trans (Cursor.left_skipWhile_le _ _) ?_
  have := Cursor.left_skip s.cursor 1
  split
  · omega
  · exact Nat.le_refl _

theorem left_toNextToken_le (fuel : Nat) (s : Scanner) :
    (toNextToken fuel s).cursor.left ≤ s.cursor.left := by
  induction fuel generalizing s with
  | zero => exact Nat.le_refl _
  | succ fuel ih =>
    have hblanks := left_pastBlanks_le s
    have hbreak := Cursor.left_skipBreak_le s.pastBlanks
    unfold toNextToken
    dsimp only
    split
    · exact Nat.le_trans (ih _) (Nat.le_trans hbreak hblanks)
    · exact hblanks

/-- A round takes a break, or it is the last one. -/
theorem toNextToken_steady {fuel : Nat} {s : Scanner} (h : s.cursor.left + 1 ≤ fuel) :
    toNextToken (fuel + 1) s = toNextToken fuel s := by
  induction fuel generalizing s with
  | zero => exact absurd h (by omega)
  | succ fuel ih =>
    have hblanks := left_pastBlanks_le s
    unfold toNextToken
    dsimp only
    split
    · rename_i hbreak
      have hlt := Cursor.left_skipBreak_lt hbreak
      exact ih (by dsimp only; omega)
    · rfl

theorem toNextToken_suffices (s : Scanner) :
    Suffices (s.cursor.rest.length + 1) fun fuel => toNextToken fuel s :=
  suffices_of_succ fun _ hfuel => toNextToken_steady hfuel

/-! ## What stays where it is -/

theorem cursor_go (column : Int) (s : Scanner) (outer : List Int) :
    (closeBlocks.go column s outer).cursor = s.cursor := by
  induction outer generalizing s with
  | nil => rfl
  | cons i outer ih =>
    unfold closeBlocks.go
    split
    · exact ih _
    · rfl

theorem cursor_closeBlocks (s : Scanner) (column : Int) :
    (s.closeBlocks column).cursor = s.cursor := by
  unfold closeBlocks
  split
  · rfl
  · exact cursor_go column s s.outer

theorem cursor_openBlock (s : Scanner) (column : Nat) (number : Option Nat) (t : Token) :
    (s.openBlock column number t).cursor = s.cursor := by
  unfold openBlock
  split
  · cases number <;> rfl
  · rfl

section Places

variable {s s' : Scanner}

theorem cursor_of_dropStaleKeys (h : s.dropStaleKeys = some s') : s'.cursor = s.cursor := by
  unfold dropStaleKeys at h
  obtain ⟨keyPlace, _, h⟩ := Option.bind_eq_some_iff.1 h
  obtain ⟨outerKeys, _, h⟩ := Option.bind_eq_some_iff.1 h
  cases h
  rfl

theorem cursor_of_dropKey (h : s.dropKey = some s') : s'.cursor = s.cursor := by
  unfold dropKey at h
  split at h
  · split at h
    · cases h
    · cases h
      rfl
  · cases h
    rfl

theorem cursor_of_saveKey (h : s.saveKey = some s') : s'.cursor = s.cursor := by
  unfold saveKey at h
  split at h
  · obtain ⟨s₁, hdrop, h⟩ := Option.bind_eq_some_iff.1 h
    have hcursor := cursor_of_dropKey hdrop
    cases h
    exact hcursor
  · cases h
    rfl

theorem cursor_of_endBlocks (h : s.endBlocks = some s') : s'.cursor = s.cursor := by
  unfold endBlocks at h
  obtain ⟨s₁, hdrop, h⟩ := Option.bind_eq_some_iff.1 h
  have hcursor := cursor_of_dropKey hdrop
  cases h
  exact hcursor.trans (cursor_closeBlocks s (-1))

theorem inFlow_of_saveKey (h : s.saveKey = some s') : s'.inFlow = s.inFlow := by
  unfold saveKey at h
  split at h
  · obtain ⟨s₁, hdrop, h⟩ := Option.bind_eq_some_iff.1 h
    cases h
    unfold dropKey at hdrop
    split at hdrop
    · split at hdrop
      · cases hdrop
      · cases hdrop
        rfl
    · cases hdrop
      rfl
  · cases h
    rfl

end Places

/-! ## What may start a key -/

theorem readsAnchor {f : String → Token} (s : Scanner) (hpos : 0 < s.cursor.left) :
    Stops s.cursor.left ((anchorName s.cursor).map fun (name, c) => (f name, c)) := by
  have := Cursor.left_skip s.cursor 1
  exact ((anchorName_stops s.cursor).map fun _ _ => rfl).mono (by omega)

theorem readsTag (s : Scanner) (_ : 0 < s.cursor.left) :
    Stops s.cursor.left ((tag s.inFlow s.cursor).map fun (t, c) => (Token.tag t, c)) :=
  (tag_stops s.inFlow s.cursor).map fun _ _ => rfl

theorem readsQuoted (single : Bool) (s : Scanner) (hpos : 0 < s.cursor.left) :
    Stops s.cursor.left
      ((quotedScalar single s.cursor).map fun (text, c) => (Token.scalar false text, c)) := by
  have := Cursor.left_skip s.cursor 1
  exact ((quotedScalar_stops single s.cursor).map fun _ _ => rfl).mono (by omega)

/-! ## Steps -/

/-- A step that succeeds was the last one, or it has taken a character. -/
def Moves (s : Scanner) (r : Option Scanner) : Prop :=
  ∀ s', r = some s' → s'.tokens.back? = some .streamEnd ∨ s'.cursor.left < s.cursor.left

section Moving

variable {s : Scanner}

theorem moves_none : Moves s none := by
  intro s' h
  cases h

theorem moves_some {s' : Scanner} (h : s'.cursor.left < s.cursor.left) : Moves s (some s') := by
  intro _ heq
  cases heq
  exact .inr h

theorem moves_bind {α : Type} {r : Option α} {f : α → Option Scanner}
    (h : ∀ a, r = some a → Moves s (f a)) : Moves s (r.bind f) := by
  intro s' heq
  obtain ⟨a, hr, hf⟩ := Option.bind_eq_some_iff.1 heq
  exact h a hr s' hf

theorem moves_ite {p : Prop} [Decidable p] {a b : Option Scanner} (ha : p → Moves s a)
    (hb : ¬ p → Moves s b) : Moves s (if p then a else b) := by
  split
  · rename_i hp
    exact ha hp
  · rename_i hp
    exact hb hp

theorem Moves.mono {s₁ : Scanner} {r : Option Scanner} (h : Moves s₁ r)
    (hle : s₁.cursor.left ≤ s.cursor.left) : Moves s r :=
  fun s' hr => (h s' hr).imp_right fun hlt => Nat.lt_of_lt_of_le hlt hle

theorem fetchEnd_moves : Moves s s.fetchEnd := by
  refine moves_bind fun s₁ _ => ?_
  intro s' h
  cases h
  exact .inl (by simp [emit])

/-- One character is taken where there is one. -/
theorem left_emitChar {s₁ : Scanner} (t : Token) (h : s₁.cursor = s.cursor)
    (hpos : 0 < s.cursor.left) : (s₁.emitChar t).cursor.left < s.cursor.left := by
  have := Cursor.left_skip s₁.cursor 1
  rw [← h] at hpos ⊢
  have hcursor : (s₁.emitChar t).cursor = s₁.cursor.skip 1 := rfl
  rw [hcursor]
  omega

variable (hpos : 0 < s.cursor.left)

include hpos

theorem fetchDirective_moves : Moves s s.fetchDirective := by
  refine moves_bind fun s₁ hs₁ => ?_
  refine moves_bind fun ⟨t, c⟩ hdirective => moves_some ?_
  have := directive_stops s₁.cursor t c hdirective
  have := Cursor.left_skip s₁.cursor 1
  rw [cursor_of_endBlocks hs₁] at *
  dsimp only
  omega

theorem fetchDocumentMark_moves (t : Token) : Moves s (s.fetchDocumentMark t) := by
  refine moves_bind fun s₁ hs₁ => moves_some ?_
  have := Cursor.left_skip s₁.cursor 3
  rw [cursor_of_endBlocks hs₁] at *
  dsimp only
  omega

theorem fetchFlowStart_moves (t : Token) : Moves s (s.fetchFlowStart t) := by
  refine moves_bind fun s₁ hs₁ => moves_some ?_
  exact left_emitChar t (cursor_of_saveKey hs₁) hpos

theorem fetchFlowEnd_moves (t : Token) : Moves s (s.fetchFlowEnd t) := by
  refine moves_bind fun s₁ hs₁ => moves_some ?_
  refine left_emitChar t ?_ hpos
  rw [← cursor_of_dropKey hs₁]
  split <;> rfl

theorem fetchFlowEntry_moves : Moves s s.fetchFlowEntry := by
  refine moves_bind fun s₁ hs₁ => moves_some ?_
  exact left_emitChar .flowEntry (cursor_of_dropKey hs₁) hpos

theorem fetchBlockEntry_moves : Moves s s.fetchBlockEntry := by
  unfold fetchBlockEntry
  split
  · exact moves_none
  · refine moves_bind fun s₁ hs₁ => moves_some ?_
    refine left_emitChar .blockEntry ?_ hpos
    rw [cursor_of_dropKey hs₁]
    exact cursor_openBlock s _ _ _

theorem fetchKey_moves : Moves s s.fetchKey := by
  unfold fetchKey
  split
  · exact moves_none
  · refine moves_bind fun s₁ hs₁ => moves_some ?_
    refine left_emitChar .key ?_ hpos
    rw [cursor_of_dropKey hs₁]
    exact cursor_openBlock s _ _ _

theorem fetchValue_moves : Moves s s.fetchValue := by
  unfold fetchValue
  split
  · refine moves_some ?_
    exact left_emitChar .value (cursor_openBlock _ _ _ _) hpos
  · split
    · exact moves_none
    · refine moves_some ?_
      exact left_emitChar .value (cursor_openBlock _ _ _ _) hpos

theorem fetchKeyStart_moves {read : Scanner → Option (Token × Cursor)}
    (hread : ∀ s, 0 < s.cursor.left → Stops s.cursor.left (read s)) :
    Moves s (s.fetchKeyStart read) := by
  refine moves_bind fun s₁ hs₁ => ?_
  refine moves_bind fun ⟨t, c⟩ ht => moves_some ?_
  have hcursor := cursor_of_saveKey hs₁
  rw [← hcursor] at hpos ⊢
  exact hread s₁ hpos t c ht

theorem fetchBlockScalar_moves (literal : Bool) : Moves s (s.fetchBlockScalar literal) := by
  refine moves_bind fun s₁ hs₁ => ?_
  refine moves_bind fun ⟨text, c⟩ htext => moves_some ?_
  have := blockScalar_stops _ _ _ text c htext
  have := Cursor.left_skip s₁.cursor 1
  rw [cursor_of_dropKey hs₁] at *
  dsimp only
  omega

end Moving

section Plain

variable {flow : Bool} {c : Char} {rest : List Char}

/-- A plain scalar starts neither with a blank nor with what ends a word in a flow collection. -/
theorem starts_word (h : startsPlain flow (c :: rest) = true) (hc : c ≠ ':') :
    (isBlank c || isBreak c || (flow && isFlowIndicator c)) = false := by
  rw [startsPlain] at h
  split at h
  · rename_i hdash
    rw [hdash]
    cases flow <;> rfl
  · split at h
    · rename_i hmark
      rw [hmark.resolve_right hc]
      cases flow <;> rfl
    · rw [Bool.not_eq_true', Bool.or_eq_false_iff, Bool.or_eq_false_iff] at h
      obtain ⟨⟨hblank, hbreak⟩, hlisted⟩ := h
      have hflow : isFlowIndicator c = false := by
        simp only [List.contains_cons, Bool.or_eq_false_iff, beq_eq_false_iff_ne] at hlisted
        simp [isFlowIndicator, hlisted]
      rw [hblank, hbreak, hflow, Bool.and_false]
      rfl

theorem head_of_startsPlain (h : startsPlain flow (c :: rest) = true) : c ≠ '#' := by
  rintro rfl
  simp [startsPlain] at h

/-- Where a plain scalar may start, its first word has a character. -/
theorem length_of_startsPlain {w : List Char} (h : startsPlain flow (c :: rest) = true)
    (hw : word flow [] (c :: rest) = some w) : 0 < w.length := by
  by_cases hc : c = ':'
  · subst hc
    obtain ⟨rfl, hends⟩ : flow = false ∧ endsWord rest = false := by
      simpa [startsPlain] using h
    have hmore : word false [':'] rest = some w := by
      unfold word at hw
      simpa [hends] using hw
    exact length_of_word hmore
  · rw [word, if_neg (by rw [starts_word h hc]; exact Bool.false_ne_true)] at hw
    · exact length_of_word hw
    · exact hc

end Plain

theorem fetchPlain_moves {s : Scanner} (hmark : s.cursor.atDocumentMark = false)
    (hstart : startsPlain s.inFlow s.cursor.rest = true) : Moves s s.fetchPlain := by
  refine moves_bind fun s₁ hs₁ => ?_
  refine moves_bind fun ⟨text, broken, c⟩ hplain => moves_some ?_
  rw [inFlow_of_saveKey hs₁, cursor_of_saveKey hs₁] at hplain
  cases hrest : s.cursor.rest with
  | nil =>
    rw [hrest] at hstart
    cases hstart
  | cons ch cs =>
    rw [hrest] at hstart
    have hhead : ¬ (s.cursor.atDocumentMark || s.cursor.rest.head? = some '#') = true := by
      simp [hmark, hrest, head_of_startsPlain hstart]
    have hpos := Cursor.left_pos hrest
    have hword : ∀ w, word s.inFlow [] s.cursor.rest = some w → 0 < w.length := by
      intro w hw
      rw [hrest] at hw
      exact length_of_startsPlain hstart hw
    exact plainScalar_stops hhead hpos hword text (broken, c) hplain

/-- **A step of the scanner takes a character, or it is the last one.** -/
theorem fetch_moves (s : Scanner) : Moves s s.fetch := by
  refine moves_bind fun s₁ hs₁ => ?_
  have hcursor : (s₁.closeBlocks s₁.cursor.column).cursor.left ≤ s.cursor.left := by
    rw [cursor_closeBlocks, cursor_of_dropStaleKeys hs₁]
    exact left_toNextToken_le _ s
  generalize s₁.closeBlocks s₁.cursor.column = s₂ at hcursor ⊢
  refine Moves.mono ?_ hcursor
  dsimp only
  split
  · exact fetchEnd_moves
  · rename_i ch rest hrest
    have hpos := Cursor.left_pos hrest
    refine moves_ite (fun _ => fetchDirective_moves hpos) fun _ => ?_
    refine moves_ite (fun _ => fetchDocumentMark_moves hpos _) fun hmark => ?_
    refine moves_ite (fun _ => fetchFlowStart_moves hpos _) fun _ => ?_
    refine moves_ite (fun _ => fetchFlowStart_moves hpos _) fun _ => ?_
    refine moves_ite (fun _ => fetchFlowEnd_moves hpos _) fun _ => ?_
    refine moves_ite (fun _ => fetchFlowEnd_moves hpos _) fun _ => ?_
    refine moves_ite (fun _ => fetchFlowEntry_moves hpos) fun _ => ?_
    refine moves_ite (fun _ => fetchBlockEntry_moves hpos) fun _ => ?_
    refine moves_ite (fun _ => fetchKey_moves hpos) fun _ => ?_
    refine moves_ite (fun _ => fetchValue_moves hpos) fun _ => ?_
    refine moves_ite (fun _ => fetchKeyStart_moves hpos readsAnchor) fun _ => ?_
    refine moves_ite (fun _ => fetchKeyStart_moves hpos readsAnchor) fun _ => ?_
    refine moves_ite (fun _ => fetchKeyStart_moves hpos readsTag) fun _ => ?_
    refine moves_ite (fun _ => fetchBlockScalar_moves hpos true) fun _ => ?_
    refine moves_ite (fun _ => fetchBlockScalar_moves hpos false) fun _ => ?_
    refine moves_ite (fun _ => fetchKeyStart_moves hpos (readsQuoted true)) fun _ => ?_
    refine moves_ite (fun _ => fetchKeyStart_moves hpos (readsQuoted false)) fun _ => ?_
    refine moves_ite (fun hstart => fetchPlain_moves ?_ hstart) fun _ => moves_none
    exact Bool.eq_false_iff.2 hmark

/-! ## Runs -/

theorem run_steady {fuel : Nat} {s : Scanner} (h : s.cursor.left + 1 ≤ fuel) :
    run (fuel + 1) s = run fuel s := by
  induction fuel generalizing s with
  | zero => exact absurd h (by omega)
  | succ fuel ih =>
    unfold run
    split
    · rfl
    · rename_i s₁ hfetch
      split
      · rfl
      · rename_i hlast
        have hlt := (fetch_moves s s₁ hfetch).resolve_left hlast
        exact ih (by omega)

theorem run_suffices (s : Scanner) :
    Suffices (s.cursor.rest.length + 1) fun fuel => run fuel s :=
  suffices_of_succ fun _ hfuel => run_steady hfuel

end Scanner

/-- **A text is cut into the tokens that any greater amount of fuel gives.** -/
theorem tokens?_eq_of_fuel {cs : List Char} {fuel : Nat} (h : cs.length + 1 ≤ fuel) :
    tokens? cs =
      if cs.all isAllowed then Scanner.run fuel (Scanner.start cs) else none := by
  have hrun : Scanner.run (cs.length + 2) (Scanner.start cs) =
      Scanner.run fuel (Scanner.start cs) :=
    (Scanner.run_suffices (Scanner.start cs)).eq (Nat.le_succ _) h
  rw [tokens?, hrun]

end Yaml

end Polydoc
