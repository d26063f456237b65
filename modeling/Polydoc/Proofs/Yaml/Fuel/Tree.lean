/-
  Proofs/Yaml/Fuel/Tree.lean --- the tree of YAML tokens never runs out of fuel.

  A node takes a token at least.  In front of it stand at most two calls that take none, one for the
  node and one for the collection that it is in, so twice the number of tokens covers all of them.
-/
import Polydoc.Proofs.Fuel
import Polydoc.Yaml.Tree

set_option autoImplicit false

namespace Polydoc

namespace Yaml

namespace Reading

/-- How many tokens are left. -/
abbrev left (r : Reading) : Nat := r.tokens.length

/-- A reader of tokens leaves less than `n` of them. -/
abbrev Passes {α : Type} (n : Nat) (r : Option (α × Reading)) : Prop := Within left n r

/-! ## Tokens in front of a node -/

theorem left_skip (r : Reading) : r.skip.left = r.left - 1 := by
  simp [left, skip]

theorem left_skip_of_next? {r : Reading} {t : Token} (h : r.next? = some t) :
    r.skip.left + 1 = r.left := by
  have hpos : 0 < r.left := by
    unfold next? at h
    exact List.length_pos_iff.2 fun hnil => by rw [hnil] at h; cases h
  rw [left_skip]
  omega

theorem left_define (r : Reading) (name : String) : (r.define name).2.left = r.left := rfl

/-- An anchor and a tag take the tokens that they are written with, and nothing else does. -/
theorem left_of_mark {r rest : Reading} {mark : Mark} (h : r.mark = some (mark, rest)) :
    rest.left ≤ r.left ∧ (mark = ⟨none, none⟩ ∨ rest.left < r.left) := by
  unfold Reading.mark at h
  split at h
  · rename_i name hanchor
    have := left_skip_of_next? hanchor
    have hdefine := left_define r.skip name
    dsimp only at h
    split at h
    · rename_i t htag
      have := left_skip_of_next? htag
      obtain ⟨tag, _, heq⟩ := Option.map_eq_some_iff.1 h
      cases heq
      exact ⟨by omega, .inr (by omega)⟩
    · cases h
      exact ⟨by omega, .inr (by omega)⟩
  · rename_i t htag
    have := left_skip_of_next? htag
    split at h
    · cases h
    · dsimp only at h
      split at h
      · rename_i name hanchor
        have := left_skip_of_next? hanchor
        have hdefine := left_define r.skip.skip name
        cases h
        exact ⟨by omega, .inr (by omega)⟩
      · cases h
        exact ⟨by omega, .inr (by omega)⟩
  · cases h
    exact ⟨Nat.le_refl _, .inl rfl⟩

section Parts

variable {ends endsKey : Option Token → Bool} {read read' : Reading → Option (Tree × Reading)}
  {r : Reading}

theorem maybe_passes (h : Passes r.left (read r)) : Passes (r.left + 1) (maybe ends read r) := by
  unfold maybe
  split
  · exact within_some (Nat.lt_succ_self _)
  · exact h.mono (Nat.le_succ _)

theorem pairValue_passes (h : ∀ r, Passes r.left (read r)) :
    Passes (r.left + 1) (pairValue ends read r) := by
  unfold pairValue
  split
  · rename_i hnext
    have := left_skip_of_next? hnext
    exact (maybe_passes (h r.skip)).mono (by omega)
  · exact within_some (Nat.lt_succ_self _)

theorem pair_passes (h : ∀ r, Passes r.left (read r)) :
    Passes (r.left + 1) (pair endsKey ends read r) := by
  refine Within.bind fun ⟨key, r₁⟩ hkey => ?_
  refine Within.bind fun ⟨value, r₂⟩ hvalue => within_some ?_
  have := maybe_passes (h r) key r₁ hkey
  have := pairValue_passes h value r₂ hvalue
  omega

theorem left_of_pastComma {first : Bool} {rest : Reading} (h : pastComma first r = some rest) :
    rest.left ≤ r.left := by
  unfold pastComma at h
  split at h
  · cases h
    exact Nat.le_refl _
  · split at h
    · cases h
      rw [left_skip]
      exact Nat.sub_le _ _
    · cases h

theorem maybe_congr (h : read r = read' r) : maybe ends read r = maybe ends read' r := by
  unfold maybe
  rw [h]

theorem pairValue_congr (h : ∀ r', r'.left ≤ r.left → read r' = read' r') :
    pairValue ends read r = pairValue ends read' r := by
  unfold pairValue
  rw [maybe_congr (h r.skip (by rw [left_skip]; omega))]

/-- Two readers that agree on what a pair may hand to them read the same pair. -/
theorem pair_congr (h : ∀ r', r'.left ≤ r.left → read r' = read' r')
    (hread : ∀ r, Passes r.left (read r)) :
    pair endsKey ends read r = pair endsKey ends read' r := by
  unfold pair
  rw [← maybe_congr (h r (Nat.le_refl _))]
  refine Option.bind_congr fun ⟨key, r₁⟩ hkey => ?_
  have hr₁ := maybe_passes (hread r) key r₁ hkey
  dsimp only
  rw [pairValue_congr fun r' hr' => h r' (by omega)]

end Parts

/-! ## What nodes leave -/

/-- What is read with some fuel takes at least one token; items that are not indented may be none.
-/
structure Shortens (fuel : Nat) : Prop where
  node : ∀ block indentless r, Passes r.left (node block indentless fuel r)
  blockItems : ∀ r, Passes r.left (blockItems fuel r)
  bareEntries : ∀ {r}, r.next? = some .blockEntry → Passes r.left (bareItems fuel r)
  bareItems : ∀ r, Passes (r.left + 1) (bareItems fuel r)
  blockMembers : ∀ r, Passes r.left (blockMembers fuel r)
  flowItems : ∀ first r, Passes r.left (flowItems first fuel r)
  flowPair : ∀ r, Passes r.left (flowPair fuel r)
  flowMembers : ∀ first r, Passes r.left (flowMembers first fuel r)

section Shortening

variable {fuel : Nat} (shortens : Shortens fuel)

include shortens

theorem node_shortens (block indentless : Bool) (r : Reading) :
    Passes r.left (node block indentless (fuel + 1) r) := by
  unfold node
  split
  · rename_i hnext
    have := left_skip_of_next? hnext
    exact within_made (by omega)
  · refine Within.bind fun ⟨mark, r₁⟩ hmark => ?_
    obtain ⟨hle, hmark⟩ := left_of_mark hmark
    dsimp only
    split
    · rename_i hnext
      have := left_skip_of_next? hnext
      exact within_some (by omega)
    · rename_i hnext
      have := left_skip_of_next? hnext
      exact ((shortens.flowItems true r₁.skip).map fun _ _ => rfl).mono (by omega)
    · rename_i hnext
      have := left_skip_of_next? hnext
      exact ((shortens.flowMembers true r₁.skip).map fun _ _ => rfl).mono (by omega)
    · split
      · rename_i hentry
        exact ((shortens.bareEntries hentry.2).map fun _ _ => rfl).mono hle
      · split
        · rename_i hstart
          have := left_skip_of_next? hstart.2
          exact ((shortens.blockItems r₁.skip).map fun _ _ => rfl).mono (by omega)
        · split
          · rename_i hstart
            have := left_skip_of_next? hstart.2
            exact ((shortens.blockMembers r₁.skip).map fun _ _ => rfl).mono (by omega)
          · split
            · exact within_none
            · rename_i hnone
              exact within_some (hmark.resolve_left hnone)

theorem blockItems_shortens (r : Reading) : Passes r.left (blockItems (fuel + 1) r) := by
  unfold blockItems
  split
  · rename_i hnext
    have := left_skip_of_next? hnext
    refine Within.bind fun ⟨item, r₁⟩ hitem => ?_
    refine Within.bind fun ⟨items, r₂⟩ hitems => within_some ?_
    have := maybe_passes (shortens.node true false r.skip) item r₁ hitem
    have := shortens.blockItems r₁ items r₂ hitems
    omega
  · rename_i hnext
    have := left_skip_of_next? hnext
    exact within_some (by omega)
  · exact within_none

theorem bareEntries_shortens {r : Reading} (h : r.next? = some .blockEntry) :
    Passes r.left (bareItems (fuel + 1) r) := by
  unfold bareItems
  rw [h]
  have := left_skip_of_next? h
  refine Within.bind fun ⟨item, r₁⟩ hitem => ?_
  refine Within.bind fun ⟨items, r₂⟩ hitems => within_some ?_
  have := maybe_passes (shortens.node true false r.skip) item r₁ hitem
  have := shortens.bareItems r₁ items r₂ hitems
  omega

theorem bareItems_shortens (r : Reading) : Passes (r.left + 1) (bareItems (fuel + 1) r) := by
  by_cases h : r.next? = some .blockEntry
  · exact (bareEntries_shortens shortens h).mono (Nat.le_succ _)
  · unfold bareItems
    split
    · contradiction
    · exact within_some (Nat.lt_succ_self _)

theorem blockMembers_shortens (r : Reading) : Passes r.left (blockMembers (fuel + 1) r) := by
  unfold blockMembers
  split
  · rename_i hnext
    have := left_skip_of_next? hnext
    refine Within.bind fun ⟨entry, r₁⟩ hentry => ?_
    refine Within.bind fun ⟨entries, r₂⟩ hentries => within_some ?_
    have := pair_passes (shortens.node true true) entry r₁ hentry
    have := shortens.blockMembers r₁ entries r₂ hentries
    omega
  · rename_i hnext
    have := left_skip_of_next? hnext
    exact within_some (by omega)
  · exact within_none

/-- An item of a flow sequence is a pair or a node. -/
theorem flowItem_passes (r : Reading) :
    Passes r.left
      (if r.next? = some .key then flowPair fuel r.skip else node false false fuel r) := by
  split
  · rename_i hkey
    have := left_skip_of_next? hkey
    exact (shortens.flowPair r.skip).mono (by omega)
  · exact shortens.node false false r

theorem flowItems_shortens (first : Bool) (r : Reading) :
    Passes r.left (flowItems first (fuel + 1) r) := by
  unfold flowItems
  split
  · rename_i hnext
    have := left_skip_of_next? hnext
    exact within_some (by omega)
  · refine Within.bind fun r₁ hcomma => ?_
    have := left_of_pastComma hcomma
    split
    · rename_i hnext
      have := left_skip_of_next? hnext
      exact within_some (by omega)
    · refine Within.bind fun ⟨item, r₂⟩ hitem => ?_
      refine Within.bind fun ⟨items, r₃⟩ hitems => within_some ?_
      have := flowItem_passes shortens r₁ item r₂ hitem
      have := shortens.flowItems false r₂ items r₃ hitems
      omega

/-- The key of such a pair, or the token that shows that it has none. -/
theorem flowKey_passes (r : Reading) :
    Passes r.left
      (if r.next? = some .value ∨ endsFlowItem r.next? then some (Tree.absent, r.skip)
        else node false false fuel r) := by
  split
  · rename_i hends
    cases hnext : r.next? with
    | some t =>
      have := left_skip_of_next? hnext
      exact within_some (by omega)
    | none =>
      rw [hnext] at hends
      rcases hends with hvalue | hends
      · cases hvalue
      · cases hends
  · exact shortens.node false false r

theorem flowPair_shortens (r : Reading) : Passes r.left (flowPair (fuel + 1) r) := by
  unfold flowPair
  refine Within.bind fun ⟨key, r₁⟩ hkey => ?_
  refine Within.bind fun ⟨value, r₂⟩ hvalue => within_some ?_
  have := flowKey_passes shortens r key r₁ hkey
  have := pairValue_passes (shortens.node false false) value r₂ hvalue
  omega

/-- An entry of a flow mapping is a pair, or a node that is a key without a value. -/
theorem flowMember_passes (r : Reading) :
    Passes r.left
      (if r.next? = some .key then
        pair endsFlowKey endsFlowMember (node false false fuel) r.skip
      else (node false false fuel r).map fun (key, r) => ((key, Tree.absent), r)) := by
  split
  · rename_i hkey
    have := left_skip_of_next? hkey
    exact (pair_passes (shortens.node false false)).mono (by omega)
  · exact (shortens.node false false r).map fun _ _ => rfl

theorem flowMembers_shortens (first : Bool) (r : Reading) :
    Passes r.left (flowMembers first (fuel + 1) r) := by
  unfold flowMembers
  split
  · rename_i hnext
    have := left_skip_of_next? hnext
    exact within_some (by omega)
  · refine Within.bind fun r₁ hcomma => ?_
    have := left_of_pastComma hcomma
    split
    · rename_i hnext
      have := left_skip_of_next? hnext
      exact within_some (by omega)
    · refine Within.bind fun ⟨entry, r₂⟩ hentry => ?_
      refine Within.bind fun ⟨entries, r₃⟩ hentries => within_some ?_
      have := flowMember_passes shortens r₁ entry r₂ hentry
      have := shortens.flowMembers false r₂ entries r₃ hentries
      omega

end Shortening

theorem shortens (fuel : Nat) : Shortens fuel := by
  induction fuel with
  | zero =>
    constructor
    all_goals intros
    all_goals exact within_none
  | succ fuel ih =>
    exact {
      node := node_shortens ih
      blockItems := blockItems_shortens ih
      bareEntries := bareEntries_shortens ih
      bareItems := bareItems_shortens ih
      blockMembers := blockMembers_shortens ih
      flowItems := flowItems_shortens ih
      flowPair := flowPair_shortens ih
      flowMembers := flowMembers_shortens ih }

/-! ## Fuel -/

/-- One unit more changes nothing, for the tokens that an amount of fuel covers. -/
structure Steady (fuel : Nat) : Prop where
  node : ∀ {block indentless r}, 2 * r.left + 1 ≤ fuel →
    node block indentless (fuel + 1) r = node block indentless fuel r
  blockItems : ∀ {r}, 2 * r.left + 2 ≤ fuel → blockItems (fuel + 1) r = blockItems fuel r
  bareItems : ∀ {r}, 0 < fuel → 2 * r.left ≤ fuel → bareItems (fuel + 1) r = bareItems fuel r
  blockMembers : ∀ {r}, 2 * r.left + 2 ≤ fuel → blockMembers (fuel + 1) r = blockMembers fuel r
  flowItems : ∀ {first r}, 2 * r.left + 2 ≤ fuel →
    flowItems first (fuel + 1) r = flowItems first fuel r
  flowPair : ∀ {r}, 2 * r.left + 2 ≤ fuel → flowPair (fuel + 1) r = flowPair fuel r
  flowMembers : ∀ {first r}, 2 * r.left + 2 ≤ fuel →
    flowMembers first (fuel + 1) r = flowMembers first fuel r

section Steadiness

variable {fuel : Nat} (steady : Steady fuel)

include steady

theorem node_steady {block indentless : Bool} {r : Reading} (h : 2 * r.left + 1 ≤ fuel + 1) :
    node block indentless (fuel + 2) r = node block indentless (fuel + 1) r := by
  unfold node
  split
  · rfl
  · refine Option.bind_congr fun ⟨mark, r₁⟩ hmark => ?_
    obtain ⟨hle, _⟩ := left_of_mark hmark
    dsimp only
    split
    · rfl
    · rename_i hnext
      have := left_skip_of_next? hnext
      rw [steady.flowItems (by omega)]
    · rename_i hnext
      have := left_skip_of_next? hnext
      rw [steady.flowMembers (by omega)]
    · split
      · rename_i hentry
        have := left_skip_of_next? hentry.2
        rw [steady.bareItems (by omega) (by omega)]
      · split
        · rename_i hstart
          have := left_skip_of_next? hstart.2
          rw [steady.blockItems (by omega)]
        · split
          · rename_i hstart
            have := left_skip_of_next? hstart.2
            rw [steady.blockMembers (by omega)]
          · rfl

theorem blockItems_steady {r : Reading} (h : 2 * r.left + 2 ≤ fuel + 1) :
    blockItems (fuel + 2) r = blockItems (fuel + 1) r := by
  unfold blockItems
  split
  · rename_i hnext
    have := left_skip_of_next? hnext
    rw [maybe_congr (steady.node (by omega))]
    refine Option.bind_congr fun ⟨item, r₁⟩ hitem => ?_
    have := maybe_passes ((shortens fuel).node true false r.skip) item r₁ hitem
    dsimp only
    rw [steady.blockItems (by omega)]
  · rfl
  · rfl

theorem bareItems_steady {r : Reading} (h : 2 * r.left ≤ fuel + 1) :
    bareItems (fuel + 2) r = bareItems (fuel + 1) r := by
  unfold bareItems
  split
  · rename_i hnext
    have := left_skip_of_next? hnext
    rw [maybe_congr (steady.node (by omega))]
    refine Option.bind_congr fun ⟨item, r₁⟩ hitem => ?_
    have := maybe_passes ((shortens fuel).node true false r.skip) item r₁ hitem
    dsimp only
    rw [steady.bareItems (by omega) (by omega)]
  · rfl

theorem blockMembers_steady {r : Reading} (h : 2 * r.left + 2 ≤ fuel + 1) :
    blockMembers (fuel + 2) r = blockMembers (fuel + 1) r := by
  unfold blockMembers
  split
  · rename_i hnext
    have := left_skip_of_next? hnext
    rw [← pair_congr (fun r' hr' => (steady.node (by omega)).symm) ((shortens fuel).node true true)]
    refine Option.bind_congr fun ⟨entry, r₁⟩ hentry => ?_
    have := pair_passes ((shortens fuel).node true true) entry r₁ hentry
    dsimp only
    rw [steady.blockMembers (by omega)]
  · rfl
  · rfl

theorem flowItem_steady {r : Reading} (h : 2 * r.left + 2 ≤ fuel + 1) :
    (if r.next? = some .key then flowPair (fuel + 1) r.skip else node false false (fuel + 1) r) =
      if r.next? = some .key then flowPair fuel r.skip else node false false fuel r := by
  split
  · rename_i hkey
    have := left_skip_of_next? hkey
    exact steady.flowPair (by omega)
  · exact steady.node (by omega)

theorem flowItems_steady {first : Bool} {r : Reading} (h : 2 * r.left + 2 ≤ fuel + 1) :
    flowItems first (fuel + 2) r = flowItems first (fuel + 1) r := by
  unfold flowItems
  split
  · rfl
  · refine Option.bind_congr fun r₁ hcomma => ?_
    have := left_of_pastComma hcomma
    split
    · rfl
    · rw [flowItem_steady steady (by omega)]
      refine Option.bind_congr fun ⟨item, r₂⟩ hitem => ?_
      have := flowItem_passes (shortens fuel) r₁ item r₂ hitem
      dsimp only
      rw [steady.flowItems (by omega)]

theorem flowPair_steady {r : Reading} (h : 2 * r.left + 2 ≤ fuel + 1) :
    flowPair (fuel + 2) r = flowPair (fuel + 1) r := by
  unfold flowPair
  rw [steady.node (by omega)]
  refine Option.bind_congr fun ⟨key, r₁⟩ hkey => ?_
  have := flowKey_passes (shortens fuel) r key r₁ hkey
  dsimp only
  rw [pairValue_congr fun r' hr' => steady.node (by omega)]

theorem flowMembers_steady {first : Bool} {r : Reading} (h : 2 * r.left + 2 ≤ fuel + 1) :
    flowMembers first (fuel + 2) r = flowMembers first (fuel + 1) r := by
  unfold flowMembers
  split
  · rfl
  · refine Option.bind_congr fun r₁ hcomma => ?_
    have := left_of_pastComma hcomma
    have := left_skip r₁
    split
    · rfl
    · rw [steady.node (by omega), ← pair_congr
        (fun r' hr' => (steady.node (by omega)).symm) ((shortens fuel).node false false)]
      refine Option.bind_congr fun ⟨entry, r₂⟩ hentry => ?_
      have := flowMember_passes (shortens fuel) r₁ entry r₂ hentry
      dsimp only
      rw [steady.flowMembers (by omega)]

end Steadiness

theorem steady (fuel : Nat) : Steady fuel := by
  induction fuel with
  | zero =>
    constructor
    all_goals intros
    all_goals omega
  | succ fuel ih =>
    exact {
      node := node_steady ih
      blockItems := blockItems_steady ih
      bareItems := fun _ => bareItems_steady ih
      blockMembers := blockMembers_steady ih
      flowItems := flowItems_steady ih
      flowPair := flowPair_steady ih
      flowMembers := flowMembers_steady ih }

theorem node_suffices (block indentless : Bool) (r : Reading) :
    Suffices (2 * r.left + 1) fun fuel => node block indentless fuel r :=
  suffices_of_succ fun _ hfuel => (steady _).node hfuel

end Reading

/-- The directives in front of a document are not among its tokens. -/
theorem Reading.length_of_directives {version : Bool} {tokens rest : List Token}
    {handles found : List (String × String)}
    (h : Reading.directives version tokens handles = some (found, rest)) :
    rest.length ≤ tokens.length := by
  fun_induction Reading.directives version tokens handles with
  | case1 => cases h
  | case2 =>
    rename_i ih
    exact Nat.le_succ_of_le (ih h)
  | case3 => cases h
  | case4 =>
    rename_i ih
    exact Nat.le_succ_of_le (ih h)
  | case5 =>
    cases h
    exact Nat.le_refl _

/-- **The tree of a document is the one that any greater amount of fuel gives.**  Here `r` is what
is read behind the directives, or behind the token that starts the document. -/
theorem node_of_fuel {tokens rest : List Token} {found : List (String × String)} {r : Reading}
    {fuel : Nat} (hdirectives : Reading.directives false tokens [] = some (found, rest))
    (hr : r.left ≤ rest.length) (h : 2 * tokens.length + 1 ≤ fuel) :
    r.node true false (4 * tokens.length + 4) = r.node true false fuel := by
  have hrest := Reading.length_of_directives hdirectives
  exact (Reading.node_suffices true false r).eq (by omega) (by omega)

end Yaml

end Polydoc
