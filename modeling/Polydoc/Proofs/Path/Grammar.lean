/-
  Proofs/Path/Grammar.lean --- the grammar of written paths, as a relation between a text and the
  path that it stands for.

      path    := ['/'] [segment ('/' segment)* ['/']]
      segment := letter (letter | digit)* | '"' quoted '"' | '.' | '..'
      quoted  := (any character but '"' and '\' | '\' any character)*

  Each production is a constructor that also gives the meaning of what it derives: the characters
  of a quoted name, the element of a segment, the elements of a path.  Nothing here mentions the
  reader.
-/
import Polydoc.Path.Reader

set_option autoImplicit false

namespace Polydoc.Path

/-! ## Productions -/

/-- What may stand between the quotes of a name, and the characters that it stands for. -/
inductive QuotedText : List Char → List Char → Prop where
  | nil : QuotedText [] []
  | plain {c : Char} {cs name : List Char} (notQuote : c ≠ '"') (notBackslash : c ≠ '\\')
      (rest : QuotedText cs name) : QuotedText (c :: cs) (c :: name)
  /-- a backslash takes the next character as it is -/
  | escaped {c : Char} {cs name : List Char} (rest : QuotedText cs name) :
      QuotedText ('\\' :: c :: cs) (c :: name)

/-- The characters of a bare name: a letter, then letters and digits. -/
inductive BareText : List Char → Prop where
  | mk {c : Char} {cs : List Char} (first : Text.isLetter c = true)
      (others : ∀ d ∈ cs, Text.isLetterOrNumeral d = true) : BareText (c :: cs)

/-- A segment and the element that it stands for. -/
inductive Segment : List Char → Element → Prop where
  | bare {cs : List Char} (name : BareText cs) : Segment cs (.name (String.ofList cs))
  | quoted {cs name : List Char} (inner : QuotedText cs name) :
      Segment ('"' :: (cs ++ ['"'])) (.name (String.ofList name))
  | self : Segment ['.'] .self
  | parent : Segment ['.', '.'] .parent

/-- One or more segments, separated by single slashes. -/
inductive Segments : List Char → List Element → Prop where
  | one {cs : List Char} {e : Element} (only : Segment cs e) : Segments cs [e]
  | more {cs ds : List Char} {e : Element} {es : List Element} (first : Segment cs e)
      (others : Segments ds es) : Segments (cs ++ '/' :: ds) (e :: es)

/-- What may stand behind the slash of an absolute path, or be a relative one. -/
inductive Body : List Char → List Element → Prop where
  | empty : Body [] []
  | segments {cs : List Char} {es : List Element} (all : Segments cs es) : Body cs es
  /-- a slash at the end changes nothing -/
  | trailing {cs : List Char} {es : List Element} (all : Segments cs es) : Body (cs ++ ['/']) es

/-- A text and the path that it stands for. -/
inductive Written : List Char → Path → Prop where
  | relative {cs : List Char} {es : List Element} (body : Body cs es) : Written cs ⟨es, false⟩
  | absolute {cs : List Char} {es : List Element} (body : Body cs es) :
      Written ('/' :: cs) ⟨es, true⟩

/-! ## Growing a derivation at its end

The productions of a list take its front apart; a reader that goes from left to right meets its
end.
-/

theorem QuotedText.append {cs ds name more : List Char} (h : QuotedText cs name)
    (h' : QuotedText ds more) : QuotedText (cs ++ ds) (name ++ more) := by
  induction h with
  | nil => exact h'
  | plain hq hb _ ih => exact .plain hq hb ih
  | escaped _ ih => exact .escaped ih

theorem bareText_iff {cs : List Char} :
    BareText cs ↔
      cs.head?.any Text.isLetter = true ∧ cs.tail.all Text.isLetterOrNumeral = true := by
  constructor
  · rintro ⟨first, others⟩
    exact ⟨first, List.all_eq_true.mpr others⟩
  · rintro ⟨first, others⟩
    cases cs with
    | nil => cases first
    | cons c rest => exact .mk first (List.all_eq_true.mp others)

instance (cs : List Char) : Decidable (BareText cs) :=
  decidable_of_iff _ bareText_iff.symm

theorem BareText.snoc {cs : List Char} {d : Char} (h : BareText cs)
    (hd : Text.isLetterOrNumeral d = true) : BareText (cs ++ [d]) := by
  cases h with
  | mk first others =>
    refine .mk first fun e he => ?_
    rcases List.mem_append.mp he with he | he
    · exact others e he
    · rw [List.mem_singleton.mp he]
      exact hd

theorem Segments.append {cs ds : List Char} {es more : List Element} (h : Segments cs es)
    (h' : Segments ds more) : Segments (cs ++ '/' :: ds) (es ++ more) := by
  induction h with
  | one only => exact .more only h'
  | more first _ ih =>
    rw [List.append_assoc]
    exact .more first ih

/-- A text behind which a segment may begin, and the elements of the segments in it. -/
inductive Opened : List Char → List Element → Prop where
  | atStart : Opened [] []
  | atSlash {cs : List Char} {es : List Element} (all : Segments cs es) : Opened (cs ++ ['/']) es

theorem Opened.body {cs : List Char} {es : List Element} (h : Opened cs es) : Body cs es := by
  cases h with
  | atStart => exact .empty
  | atSlash all => exact .trailing all

theorem Opened.close {cs ds : List Char} {es : List Element} {e : Element} (h : Opened cs es)
    (hs : Segment ds e) : Segments (cs ++ ds) (es ++ [e]) := by
  cases h with
  | atStart => exact .one hs
  | atSlash all =>
    rw [List.append_assoc]
    exact all.append (.one hs)

/-! ## Properties of derivations -/

theorem Segment.ne_root {cs : List Char} {e : Element} (h : Segment cs e) : e ≠ .root := by
  cases h <;> simp

theorem Segments.root_notMem {cs : List Char} {es : List Element} (h : Segments cs es) :
    Element.root ∉ es := by
  induction h with
  | one only => simpa using only.ne_root.symm
  | more first _ ih => simpa [ih] using first.ne_root.symm

theorem Body.root_notMem {cs : List Char} {es : List Element} (h : Body cs es) :
    Element.root ∉ es := by
  cases h with
  | empty => simp
  | segments all => exact all.root_notMem
  | trailing all => exact all.root_notMem

/-- A root marker has no written form. -/
theorem Written.root_notMem {cs : List Char} {p : Path} (h : Written cs p) :
    Element.root ∉ p.elements := by
  cases h with
  | relative body => exact body.root_notMem
  | absolute body => exact body.root_notMem

/-- A letter is none of the characters that have a meaning of their own. -/
theorem ne_of_isLetter {c d : Char} (hc : Text.isLetter c = true)
    (hd : Text.isLetterOrNumeral d = false) : c ≠ d := by
  rintro rfl
  rw [Text.isLetterOrNumeral_of_isLetter hc] at hd
  exact Bool.noConfusion hd

theorem Segment.ne_slash {c : Char} {cs : List Char} {e : Element} (h : Segment (c :: cs) e) :
    c ≠ '/' := by
  cases h with
  | bare name =>
    cases name with
    | mk first _ => exact ne_of_isLetter first Text.isLetterOrNumeral_slash
  | quoted _ => decide
  | self => decide
  | parent => decide

theorem Segment.ne_nil {cs : List Char} {e : Element} (h : Segment cs e) : cs ≠ [] := by
  cases h with
  | bare name => cases name; simp
  | quoted _ => simp
  | self => simp
  | parent => simp

theorem Segments.ne_slash {c : Char} {cs : List Char} {es : List Element}
    (h : Segments (c :: cs) es) : c ≠ '/' := by
  generalize ht : c :: cs = text at h
  cases h with
  | one only =>
    subst ht
    exact only.ne_slash
  | @more ds _ _ _ first _ =>
    cases ds with
    | nil => exact absurd rfl first.ne_nil
    | cons d ds =>
      rw [List.cons_append, List.cons.injEq] at ht
      rw [ht.1]
      exact first.ne_slash

theorem Segments.ne_nil {cs : List Char} {es : List Element} (h : Segments cs es) : cs ≠ [] := by
  cases h with
  | one only => exact only.ne_nil
  | more _ _ => simp

theorem Body.ne_slash {c : Char} {cs : List Char} {es : List Element} (h : Body (c :: cs) es) :
    c ≠ '/' := by
  generalize ht : c :: cs = text at h
  cases h with
  | empty => simp at ht
  | segments all =>
    subst ht
    exact all.ne_slash
  | @trailing ds _ all =>
    cases ds with
    | nil => exact absurd rfl all.ne_nil
    | cons d ds =>
      rw [List.cons_append, List.cons.injEq] at ht
      rw [ht.1]
      exact all.ne_slash

/-- A path is absolute exactly if its text begins with a slash. -/
theorem Written.absolute_iff {cs : List Char} {p : Path} (h : Written cs p) :
    p.absolute = true ↔ cs.head? = some '/' := by
  cases h with
  | absolute _ => simp
  | relative body =>
    cases cs with
    | nil => simp
    | cons c cs => simpa using body.ne_slash

end Polydoc.Path
