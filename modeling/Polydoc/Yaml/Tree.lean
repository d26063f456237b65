/-
  Yaml/Tree.lean --- the tree that the tokens of a YAML text describe, with its aliases still in
  place.

  An anchor is known by a number: how many different names were anchored before it.  A name that is
  anchored again takes a new number, which a later name may take as well; a number stands for the
  last node that has it.
-/
import Polydoc.Yaml.Token

set_option autoImplicit false

namespace Polydoc

namespace Yaml

/-- What is written in front of a node: an anchor, by its number, and a tag. -/
structure Mark where
  anchor : Option Nat
  tag : Option String
  deriving DecidableEq, Repr

/-- A node as it is written. -/
inductive Tree where
  /-- the node anchored with that number, once more -/
  | alias (number : Nat)
  | scalar (mark : Mark) (plain : Bool) (text : String)
  | sequence (mark : Mark) (items : List Tree)
  | mapping (mark : Mark) (entries : List (Tree × Tree))
  deriving Repr

namespace Tree

/-- The node that stands where nothing is written. -/
def absent : Tree := .scalar ⟨none, none⟩ true ""

mutual

/-- How many events make up a node: one for a scalar or an alias, two for a collection itself. -/
def events : Tree → Nat
  | .alias _ => 1
  | .scalar _ _ _ => 1
  | .sequence _ items => 2 + eventsOfItems items
  | .mapping _ entries => 2 + eventsOfEntries entries

def eventsOfItems : List Tree → Nat
  | [] => 0
  | t :: rest => t.events + eventsOfItems rest

def eventsOfEntries : List (Tree × Tree) → Nat
  | [] => 0
  | (k, v) :: rest => k.events + v.events + eventsOfEntries rest

end

mutual

/-- The anchored nodes with their numbers, the one that starts last in front. -/
def anchors (t : Tree) (acc : List (Nat × Tree)) : List (Nat × Tree) :=
  match t with
  | .alias _ => acc
  | .scalar mark plain text =>
    match mark.anchor with
    | some n => (n, .scalar mark plain text) :: acc
    | none => acc
  | .sequence mark items =>
    anchorsOfItems items
      (match mark.anchor with
        | some n => (n, .sequence mark items) :: acc
        | none => acc)
  | .mapping mark entries =>
    anchorsOfEntries entries
      (match mark.anchor with
        | some n => (n, .mapping mark entries) :: acc
        | none => acc)

def anchorsOfItems (ts : List Tree) (acc : List (Nat × Tree)) : List (Nat × Tree) :=
  match ts with
  | [] => acc
  | t :: rest => anchorsOfItems rest (anchors t acc)

def anchorsOfEntries (es : List (Tree × Tree)) (acc : List (Nat × Tree)) : List (Nat × Tree) :=
  match es with
  | [] => acc
  | (k, v) :: rest => anchorsOfEntries rest (anchors v (anchors k acc))

end

end Tree

/-! ## Reading a document -/

/-- What is left to read: the tokens, the tag handles of the document, and the numbers of the names
anchored so far. -/
structure Reading where
  tokens : List Token
  handles : List (String × String)
  names : List (String × Nat)

namespace Reading

def next? (r : Reading) : Option Token := r.tokens.head?

def skip (r : Reading) : Reading := { r with tokens := r.tokens.drop 1 }

/-- Gives a name its number. -/
def define (r : Reading) (name : String) : Nat × Reading :=
  let number := r.names.length
  let names := (name, number) :: r.names.filter fun e => e.1 != name
  (number, { r with names })

/-- The full form of a tag. -/
def fullTag (r : Reading) (t : RawTag) : Option String :=
  if t.handle.isEmpty then some t.suffix
  else (r.handles.lookup t.handle).map (· ++ t.suffix)

/-- An anchor and a tag, in either order. -/
def mark (r : Reading) : Option (Mark × Reading) :=
  match r.next? with
  | some (.anchor name) =>
    let (number, r) := r.skip.define name
    match r.next? with
    | some (.tag t) => (r.fullTag t).map fun tag => (⟨some number, some tag⟩, r.skip)
    | _ => some (⟨some number, none⟩, r)
  | some (.tag t) =>
    match r.fullTag t with
    | none => none
    | some tag =>
      let r := r.skip
      match r.next? with
      | some (.anchor name) =>
        let (number, r) := r.skip.define name
        some (⟨some number, some tag⟩, r)
      | _ => some (⟨none, some tag⟩, r)
  | _ => some (⟨none, none⟩, r)

/-- A token in front of which a block collection may leave out a node. -/
def endsBlockNode : Option Token → Bool
  | some .key => true
  | some .value => true
  | some .blockEnd => true
  | _ => false

/-- A token in front of which a block sequence may leave out an item. -/
def endsBlockItem : Option Token → Bool
  | some .blockEntry => true
  | some .blockEnd => true
  | _ => false

/-- The same for a block sequence that is not indented. -/
def endsBareItem (t : Option Token) : Bool := t = some .blockEntry || endsBlockNode t

/-- A token in front of which an entry of a flow sequence may leave out a node. -/
def endsFlowItem : Option Token → Bool
  | some .flowEntry => true
  | some .flowSequenceEnd => true
  | _ => false

/-- A token in front of which an entry of a flow mapping may leave out a node. -/
def endsFlowMember : Option Token → Bool
  | some .flowEntry => true
  | some .flowMappingEnd => true
  | _ => false

/-- A token in front of which a pair of a flow mapping may leave out its key. -/
def endsFlowKey (t : Option Token) : Bool := t = some .value || endsFlowMember t

/-! ## Pairs and commas -/

/-- The node that `read` finds, unless it is left out in front of a token that `ends` it. -/
def maybe (ends : Option Token → Bool) (read : Reading → Option (Tree × Reading)) (r : Reading) :
    Option (Tree × Reading) :=
  if ends r.next? then some (Tree.absent, r) else read r

/-- The value of a pair, which may be left out with its token or without it. -/
def pairValue (ends : Option Token → Bool) (read : Reading → Option (Tree × Reading))
    (r : Reading) : Option (Tree × Reading) :=
  if r.next? = some .value then maybe ends read r.skip else some (Tree.absent, r)

/-- A pair, behind its key token. -/
def pair (endsKey ends : Option Token → Bool) (read : Reading → Option (Tree × Reading))
    (r : Reading) : Option ((Tree × Tree) × Reading) := do
  let (key, r) ← maybe endsKey read r
  let (value, r) ← pairValue ends read r
  return ((key, value), r)

/-- What follows the comma in front of an entry, which the first entry does not have. -/
def pastComma (first : Bool) (r : Reading) : Option Reading :=
  if first then some r else if r.next? = some .flowEntry then some r.skip else none

/-! ## Nodes -/

mutual

/-- The node in front.  Block collections are allowed in block context only; a sequence as the value
of a block mapping need not be indented. -/
def node (block indentless : Bool) : Nat → Reading → Option (Tree × Reading)
  | 0, _ => none
  | fuel + 1, r =>
    match r.next? with
    | some (.alias name) => (r.names.lookup name).map fun number => (.alias number, r.skip)
    | _ => do
      let (mark, r) ← r.mark
      match r.next? with
      | some (.scalar plain text) =>
        let mark := if mark.tag = some "!" then { mark with tag := none } else mark
        some (.scalar mark plain text, r.skip)
      | some .flowSequenceStart =>
        (flowItems true fuel r.skip).map fun (items, r) => (.sequence mark items, r)
      | some .flowMappingStart =>
        (flowMembers true fuel r.skip).map fun (entries, r) => (.mapping mark entries, r)
      | t =>
        if indentless ∧ t = some .blockEntry then
          (bareItems fuel r).map fun (items, r) => (.sequence mark items, r)
        else if block ∧ t = some .blockSequenceStart then
          (blockItems fuel r.skip).map fun (items, r) => (.sequence mark items, r)
        else if block ∧ t = some .blockMappingStart then
          (blockMembers fuel r.skip).map fun (entries, r) => (.mapping mark entries, r)
        else if mark = ⟨none, none⟩ then none
        else some (.scalar mark true "", r)

/-- The items of a block sequence. -/
def blockItems : Nat → Reading → Option (List Tree × Reading)
  | 0, _ => none
  | fuel + 1, r =>
    match r.next? with
    | some .blockEntry => do
      let (item, r) ← maybe endsBlockItem (node true false fuel) r.skip
      let (items, r) ← blockItems fuel r
      return (item :: items, r)
    | some .blockEnd => some ([], r.skip)
    | _ => none

/-- The items of a block sequence that is not indented. -/
def bareItems : Nat → Reading → Option (List Tree × Reading)
  | 0, _ => none
  | fuel + 1, r =>
    match r.next? with
    | some .blockEntry => do
      let (item, r) ← maybe endsBareItem (node true false fuel) r.skip
      let (items, r) ← bareItems fuel r
      return (item :: items, r)
    | _ => some ([], r)

/-- The entries of a block mapping. -/
def blockMembers : Nat → Reading → Option (List (Tree × Tree) × Reading)
  | 0, _ => none
  | fuel + 1, r =>
    match r.next? with
    | some .key => do
      let (entry, r) ← pair endsBlockNode endsBlockNode (node true true fuel) r.skip
      let (entries, r) ← blockMembers fuel r
      return (entry :: entries, r)
    | some .blockEnd => some ([], r.skip)
    | _ => none

/-- The items of a flow sequence; a pair among them is a mapping of its own. -/
def flowItems (first : Bool) : Nat → Reading → Option (List Tree × Reading)
  | 0, _ => none
  | fuel + 1, r =>
    if r.next? = some .flowSequenceEnd then some ([], r.skip)
    else do
      let r ← pastComma first r
      if r.next? = some .flowSequenceEnd then some ([], r.skip)
      else
        let (item, r) ← (if r.next? = some .key then flowPair fuel r.skip
          else node false false fuel r)
        let (items, r) ← flowItems false fuel r
        return (item :: items, r)

/-- A pair that is an item of a flow sequence, behind its key token.  Where the key is left out, the
token that shows this is passed over. -/
def flowPair : Nat → Reading → Option (Tree × Reading)
  | 0, _ => none
  | fuel + 1, r => do
    let (key, r) ← (if r.next? = some .value ∨ endsFlowItem r.next? then some (Tree.absent, r.skip)
      else node false false fuel r)
    let (value, r) ← pairValue endsFlowItem (node false false fuel) r
    return (.mapping ⟨none, none⟩ [(key, value)], r)

/-- The entries of a flow mapping. -/
def flowMembers (first : Bool) : Nat → Reading → Option (List (Tree × Tree) × Reading)
  | 0, _ => none
  | fuel + 1, r =>
    if r.next? = some .flowMappingEnd then some ([], r.skip)
    else do
      let r ← pastComma first r
      if r.next? = some .flowMappingEnd then some ([], r.skip)
      else
        let (entry, r) ←
          (if r.next? = some .key then
            pair endsFlowKey endsFlowMember (node false false fuel) r.skip
          else (node false false fuel r).map fun (key, r) => ((key, Tree.absent), r))
        let (entries, r) ← flowMembers false fuel r
        return (entry :: entries, r)

end

/-- Whether a version of the language is one that is read. -/
def knownVersion (major minor : Nat) : Bool :=
  major = 1 && (minor = 1 || minor = 2)

/-- The directives in front of a document: at most one version, and every handle once. -/
def directives (version : Bool) : List Token → List (String × String) →
    Option (List (String × String) × List Token)
  | .versionDirective major minor :: rest, handles =>
    if version || !knownVersion major minor then none else directives true rest handles
  | .tagDirective handle start :: rest, handles =>
    if (handles.lookup handle).isSome then none
    else directives version rest ((handle, start) :: handles)
  | rest, handles => some (handles, rest)

/-- The handles that every document has, unless it gives them another meaning. -/
def defaultHandles : List (String × String) :=
  [("!", "!"), ("!!", "tag:yaml.org,2002:")]

/-- Whether a token ends a document or starts one. -/
def endsDocument : Option Token → Bool
  | some .documentStart => true
  | some .documentEnd => true
  | some .streamEnd => true
  | some (.versionDirective _ _) => true
  | some (.tagDirective _ _) => true
  | none => true
  | _ => false

end Reading

/-- The only document of a text, or `none` inside if there is no document.  Further documents are
refused. -/
def document? (tokens : List Token) : Option (Option Tree) :=
  if tokens.head? = some .streamEnd then some none
  else do
    let (handles, rest) ← Reading.directives false tokens []
    let r : Reading := ⟨rest, handles ++ Reading.defaultHandles, []⟩
    let explicit := r.next? == some .documentStart
    if !explicit && rest.length != tokens.length then none
    let r := if explicit then r.skip else r
    let (tree, r) ←
      if explicit && Reading.endsDocument r.next? then some (Tree.absent, r)
      else r.node true false (4 * tokens.length + 4)
    if (r.tokens.dropWhile (· = .documentEnd)).head? = some .streamEnd then some (some tree)
    else none

end Yaml

end Polydoc
