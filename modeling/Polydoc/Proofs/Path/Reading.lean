/-
  Proofs/Path/Reading.lean --- the reader of paths accepts exactly what the grammar derives, and
  gives it the meaning that the grammar gives it.

  What is read is derived: `Reads` ties the mode, the pending characters and the elements found to
  the part of the text that has been taken, every move keeps it, and at the end of the text it is a
  derivation.  What is derived is read: along a derivation the machine makes the moves that the
  productions call for.
-/
import Polydoc.Proofs.Path.Grammar
import Polydoc.Proofs.Path.Machine

set_option autoImplicit false

namespace Polydoc.Path

namespace Scan

/-! ## What the reader knows -/

/-- How mode, pending characters and elements stand to the part of the text that has been taken.  A
bare name is pending only once it has begun, except right before its first character; the same goes
for dots. -/
def Knows (s : Scan) (taken : List Char) : Prop :=
  match s.mode with
  | .start => Opened taken s.found
  | .bare => ∃ before, taken = before ++ s.pending ∧ Opened before s.found ∧
      (BareText s.pending ∨ s.pending = [] ∧ s.rest ≠ [])
  | .quoted => ∃ before inner, taken = before ++ '"' :: inner ∧ Opened before s.found ∧
      QuotedText inner s.pending
  | .escape => ∃ before inner, taken = before ++ '"' :: (inner ++ ['\\']) ∧
      Opened before s.found ∧ QuotedText inner s.pending
  | .separator => Segments taken s.found
  | .dots => ∃ before, taken = before ++ s.pending ∧ Opened before s.found ∧
      (s.pending = ['.'] ∨ s.pending = ['.', '.'] ∨ s.pending = [] ∧ s.rest.head? = some '.')

/-- The state of a reader of `text` that has taken `taken` of it; the first character of the text
has the position `first`. -/
structure Reads (first : Nat) (text taken : List Char) (s : Scan) : Prop where
  split : taken ++ s.rest = text
  position_eq : s.position = first + taken.length
  knows : s.Knows taken

/-- At the end, all of the text has been taken. -/
theorem Reads.taken_eq {first : Nat} {text taken : List Char} {s : Scan}
    (h : Reads first text taken s) (hend : s.rest = []) : taken = text := by
  have hsplit := h.split
  rwa [hend, List.append_nil] at hsplit

/-- Nothing is taken at first. -/
theorem reads_begin (first : Nat) (text : List Char) :
    Reads first text [] (begin first text) :=
  ⟨rfl, rfl, .atStart⟩

/-- The element that one or two dots stand for. -/
theorem segment_dots {ds : List Char} (h : ds = ['.'] ∨ ds = ['.', '.']) :
    Segment ds (if ds = ['.'] then .self else .parent) := by
  rcases h with rfl | rfl
  · exact .self
  · exact .parent

/-- A move that takes the character in front. -/
theorem Reads.take {first : Nat} {text taken rest : List Char} {c : Char} {s t : Scan}
    (h : Reads first text taken s) (hr : s.rest = c :: rest) (hrest : t.rest = rest)
    (hpos : t.position = s.position + 1) (hknows : t.Knows (taken ++ [c])) :
    Reads first text (taken ++ [c]) t where
  split := by
    rw [hrest, List.append_assoc, List.singleton_append, ← hr]
    exact h.split
  position_eq := by
    rw [hpos, h.position_eq, List.length_append, List.length_singleton, Nat.add_assoc]
  knows := hknows

/-- A move that hands the character in front to another mode. -/
theorem Reads.hand {first : Nat} {text taken : List Char} {s t : Scan}
    (h : Reads first text taken s) (hrest : t.rest = s.rest) (hpos : t.position = s.position)
    (hknows : t.Knows taken) : Reads first text taken t :=
  ⟨hrest ▸ h.split, hpos ▸ h.position_eq, hknows⟩

/-- Every move keeps what the reader knows. -/
theorem Move.reads {first : Nat} {text : List Char} {s t : Scan} (hm : Move s t)
    (h : ∃ taken, Reads first text taken s) : ∃ taken, Reads first text taken t := by
  obtain ⟨taken, h⟩ := h
  have hk := h.knows
  cases hm with
  | openQuote => exact ⟨_, h.take rfl rfl rfl ⟨taken, [], rfl, hk, .nil⟩⟩
  | toBare _ => exact ⟨_, h.hand rfl rfl ⟨taken, by simp, hk, .inr ⟨rfl, by simp⟩⟩⟩
  | toDots =>
    obtain ⟨before, htaken, hopened, _⟩ := hk
    exact ⟨_, h.hand rfl rfl ⟨before, htaken, hopened, .inr (.inr ⟨rfl, rfl⟩)⟩⟩
  | letter hfirst =>
    obtain ⟨before, htaken, hopened, _⟩ := hk
    refine ⟨_, h.take rfl rfl rfl ⟨before, ?_, hopened, .inl (.mk hfirst (by simp))⟩⟩
    simp [htaken]
  | letterOrDigit begun other =>
    obtain ⟨before, htaken, hopened, hname | ⟨hnil, _⟩⟩ := hk
    · refine ⟨_, h.take rfl rfl rfl ⟨before, ?_, hopened, .inl (hname.snoc other)⟩⟩
      simp [htaken]
    · exact absurd hnil begun
  | endBare begun =>
    obtain ⟨before, htaken, hopened, hname | ⟨hnil, _⟩⟩ := hk
    · refine ⟨_, h.hand rfl rfl ?_⟩
      rw [htaken]
      exact hopened.close (.bare hname)
    · exact absurd hnil begun
  | backslash =>
    obtain ⟨before, inner, htaken, hopened, hinner⟩ := hk
    refine ⟨_, h.take rfl rfl rfl ⟨before, inner, ?_, hopened, hinner⟩⟩
    simp [htaken]
  | @escaped c =>
    obtain ⟨before, inner, htaken, hopened, hinner⟩ := hk
    refine ⟨_, h.take rfl rfl rfl
      ⟨before, inner ++ ['\\', c], ?_, hopened, hinner.append (.escaped .nil)⟩⟩
    simp [htaken]
  | @plain c _ _ _ _ notQuote notBackslash =>
    obtain ⟨before, inner, htaken, hopened, hinner⟩ := hk
    refine ⟨_, h.take rfl rfl rfl
      ⟨before, inner ++ [c], ?_, hopened, hinner.append (.plain notQuote notBackslash .nil)⟩⟩
    simp [htaken]
  | closeQuote =>
    obtain ⟨before, inner, htaken, hopened, hinner⟩ := hk
    refine ⟨_, h.take rfl rfl rfl ?_⟩
    rw [htaken, List.append_assoc, List.cons_append]
    exact hopened.close (.quoted hinner)
  | @dot _ _ pending _ room =>
    obtain ⟨before, htaken, hopened, hdots⟩ := hk
    refine ⟨_, h.take rfl rfl rfl ⟨before, by simp [htaken], hopened, ?_⟩⟩
    rcases hdots with (hone : pending = ['.']) | (htwo : pending = ['.', '.']) |
      ⟨(hnone : pending = []), _⟩
    · rw [hone]
      exact .inr (.inl rfl)
    · rw [htwo] at room
      exact absurd room (by decide)
    · rw [hnone]
      exact .inl rfl
  | endDots =>
    obtain ⟨before, htaken, hopened, hdots⟩ := hk
    refine ⟨_, h.hand rfl rfl ?_⟩
    rw [htaken]
    rcases hdots with hone | htwo | ⟨_, hfront⟩
    · exact hopened.close (segment_dots (.inl hone))
    · exact hopened.close (segment_dots (.inr htwo))
    · exact absurd hfront (by simp)
  | slash => exact ⟨_, h.take rfl rfl rfl (.atSlash hk)⟩

/-! ## What is read is derived -/

/-- At the end of the text, what the reader knows is a derivation of what it gives. -/
theorem body_of_finish {s : Scan} {taken : List Char} {es : List Element} (hk : s.Knows taken)
    (hend : s.rest = []) (h : s.finish = .ok es) : Body taken es := by
  obtain ⟨rest, position, mode, pending, found⟩ := s
  subst hend
  cases mode <;> cases h
  case start => exact Opened.body hk
  case bare =>
    obtain ⟨before, htaken, hopened, hname | ⟨_, hmore⟩⟩ := hk
    · rw [htaken]
      exact .segments (hopened.close (.bare hname))
    · exact absurd rfl hmore
  case separator => exact .segments hk
  case dots =>
    obtain ⟨before, htaken, hopened, hdots⟩ := hk
    rw [htaken]
    rcases hdots with hone | htwo | ⟨_, hfront⟩
    · exact .segments (hopened.close (segment_dots (.inl hone)))
    · exact .segments (hopened.close (segment_dots (.inr htwo)))
    · exact absurd hfront (by simp)

end Scan

theorem readElements_sound {first : Nat} {cs : List Char} {es : List Element}
    (h : readElements first cs = .ok es) : Body cs es := by
  unfold readElements at h
  cases hrun : (Scan.begin first cs).run with
  | error e =>
    rw [hrun] at h
    cases h
  | ok s =>
    rw [hrun] at h
    obtain ⟨⟨taken, hreads⟩, hend⟩ :=
      Scan.run_invariant Scan.Move.reads hrun ⟨[], Scan.reads_begin first cs⟩
    rw [← hreads.taken_eq hend]
    exact Scan.body_of_finish hreads.knows hend h

/-! ## What is derived is read -/

namespace Scan

variable {rest : List Char} {position : Nat} {pending : List Char} {found : List Element}

theorem run_quotedText {cs name : List Char} (h : QuotedText cs name) :
    run ⟨cs ++ rest, position, .quoted, pending, found⟩ =
      run ⟨rest, position + cs.length, .quoted, pending ++ name, found⟩ := by
  induction h generalizing position pending with
  | nil => simp
  | plain notQuote notBackslash _ ih =>
    rw [List.cons_append, (Move.plain notQuote notBackslash).run_eq, ih]
    simp [Nat.add_assoc, Nat.add_comm 1]
  | escaped _ ih =>
    rw [List.cons_append, List.cons_append, Move.backslash.run_eq, Move.escaped.run_eq, ih]
    simp [Nat.add_assoc, Nat.add_comm 2]

theorem run_lettersAndDigits {cs : List Char}
    (h : ∀ c ∈ cs, Text.isLetterOrNumeral c = true) (begun : pending ≠ []) :
    run ⟨cs ++ rest, position, .bare, pending, found⟩ =
      run ⟨rest, position + cs.length, .bare, pending ++ cs, found⟩ := by
  induction cs generalizing position pending with
  | nil => simp
  | cons c cs ih =>
    rw [List.cons_append, (Move.letterOrDigit begun (h c List.mem_cons_self)).run_eq,
      ih (fun d hd => h d (List.mem_cons_of_mem c hd)) (by simp)]
    simp [Nat.add_assoc, Nat.add_comm 1]

theorem run_bareText {cs : List Char} (h : BareText cs) :
    run ⟨cs ++ rest, position, .start, pending, found⟩ =
      run ⟨rest, position + cs.length, .bare, cs, found⟩ := by
  cases h with
  | @mk c cs first others =>
    have hquote : c ≠ '"' := ne_of_isLetter first Text.isLetterOrNumeral_quote
    rw [List.cons_append, (Move.toBare hquote).run_eq, (Move.letter first).run_eq,
      run_lettersAndDigits others (by simp)]
    simp [Nat.add_assoc, Nat.add_comm 1]

theorem run_quoted {cs name : List Char} (h : QuotedText cs name) :
    run ⟨'"' :: (cs ++ ['"']) ++ rest, position, .start, pending, found⟩ =
      run ⟨rest, position + cs.length + 2, .separator, [],
        found ++ [.name (String.ofList name)]⟩ := by
  rw [List.cons_append, List.append_assoc, Move.openQuote.run_eq, run_quotedText h,
    List.singleton_append, Move.closeQuote.run_eq, List.nil_append, Nat.add_right_comm position]

theorem run_oneDot :
    run ⟨'.' :: rest, position, .start, pending, found⟩ =
      run ⟨rest, position + 1, .dots, ['.'], found⟩ := by
  rw [(Move.toBare (by decide)).run_eq, Move.toDots.run_eq, (Move.dot (by decide)).run_eq]
  rfl

theorem run_twoDots :
    run ⟨'.' :: '.' :: rest, position, .start, pending, found⟩ =
      run ⟨rest, position + 2, .dots, ['.', '.'], found⟩ := by
  rw [run_oneDot, (Move.dot (by decide)).run_eq]
  rfl

/-- A segment with a slash behind it. -/
theorem run_segment_slash {cs : List Char} {e : Element} (h : Segment cs e) :
    run ⟨cs ++ '/' :: rest, position, .start, pending, found⟩ =
      run ⟨rest, position + cs.length + 1, .start, [], found ++ [e]⟩ := by
  cases h with
  | bare name =>
    have begun : cs ≠ [] := by cases name; simp
    rw [run_bareText name, (Move.endBare begun).run_eq, Move.slash.run_eq]
  | quoted inner =>
    rw [run_quoted inner, Move.slash.run_eq]
    simp [Nat.add_assoc]
  | self =>
    rw [List.singleton_append, run_oneDot, Move.endDots.run_eq, Move.slash.run_eq]
    rfl
  | parent =>
    rw [List.cons_append, List.singleton_append, run_twoDots, Move.endDots.run_eq,
      Move.slash.run_eq]
    rfl

/-- A segment at the end of the text. -/
theorem run_segment_end {cs : List Char} {e : Element} (h : Segment cs e) :
    (run ⟨cs, position, .start, pending, found⟩).bind finish = .ok (found ++ [e]) := by
  rw [← List.append_nil cs]
  cases h with
  | bare name =>
    rw [run_bareText name, run_nil rfl]
    rfl
  | quoted inner =>
    rw [run_quoted inner, run_nil rfl]
    rfl
  | self =>
    rw [List.singleton_append, run_oneDot, run_nil rfl]
    rfl
  | parent =>
    rw [List.cons_append, List.singleton_append, run_twoDots, run_nil rfl]
    rfl

theorem run_segments_slash {cs : List Char} {es : List Element} (h : Segments cs es) :
    run ⟨cs ++ '/' :: rest, position, .start, pending, found⟩ =
      run ⟨rest, position + cs.length + 1, .start, [], found ++ es⟩ := by
  induction h generalizing position pending found with
  | one only => exact run_segment_slash only
  | more first _ ih =>
    rw [List.append_assoc, List.cons_append, run_segment_slash first, ih]
    simp [Nat.add_assoc, Nat.add_comm, Nat.add_left_comm]

theorem run_segments_end {cs : List Char} {es : List Element} (h : Segments cs es) :
    (run ⟨cs, position, .start, pending, found⟩).bind finish = .ok (found ++ es) := by
  induction h generalizing position pending found with
  | one only => exact run_segment_end only
  | more first _ ih =>
    rw [run_segment_slash first, ih, List.append_assoc, List.singleton_append]

end Scan

theorem readElements_complete {cs : List Char} {es : List Element} (first : Nat)
    (h : Body cs es) : readElements first cs = .ok es := by
  unfold readElements Scan.begin
  cases h with
  | empty =>
    rw [Scan.run_nil rfl]
    rfl
  | segments all => exact Scan.run_segments_end all
  | trailing all =>
    rw [Scan.run_segments_slash all, Scan.run_nil rfl]
    rfl

/-! ## The reader and the grammar agree -/

theorem readElements_eq_ok_iff (first : Nat) {cs : List Char} {es : List Element} :
    readElements first cs = .ok es ↔ Body cs es :=
  ⟨readElements_sound, readElements_complete first⟩

/-- The elements of a text without a leading slash, or behind it. -/
theorem readElements_map_eq_ok_iff {first : Nat} {cs : List Char} {p : Path} {absolute : Bool} :
    (readElements first cs).map (fun es => (⟨es, absolute⟩ : Path)) = .ok p ↔
      Body cs p.elements ∧ p.absolute = absolute := by
  obtain ⟨elements, flag⟩ := p
  rw [← readElements_eq_ok_iff first]
  cases readElements first cs with
  | error e => simp [Except.map]
  | ok es => simp [Except.map, eq_comm]

theorem readChars_eq_ok_iff {cs : List Char} {p : Path} : readChars cs = .ok p ↔ Written cs p := by
  unfold readChars
  split
  · rename_i rest
    rw [readElements_map_eq_ok_iff]
    constructor
    · rintro ⟨body, habs⟩
      obtain ⟨elements, flag⟩ := p
      cases habs
      exact .absolute body
    · intro h
      generalize ht : '/' :: rest = text at h
      cases h with
      | absolute body =>
        cases ht
        exact ⟨body, rfl⟩
      | relative body =>
        subst ht
        exact absurd rfl body.ne_slash
  · rename_i hslash
    rw [readElements_map_eq_ok_iff]
    constructor
    · rintro ⟨body, habs⟩
      obtain ⟨elements, flag⟩ := p
      cases habs
      exact .relative body
    · intro h
      cases h with
      | relative body => exact ⟨body, rfl⟩
      | absolute body => exact absurd rfl (hslash _)

theorem read_eq_ok_iff {text : String} {p : Path} :
    read text = .ok p ↔ Written text.toList p :=
  readChars_eq_ok_iff

/-- A bare name is a relative path of one element. -/
theorem read_bare {text : String} (h : BareText text.toList) :
    read text = .ok (.ofNames [text] false) := by
  have hsegment : Segment text.toList (.name text) := by
    have hbare := Segment.bare h
    rwa [String.ofList_toList] at hbare
  exact read_eq_ok_iff.mpr (.relative (.segments (.one hsegment)))

/-- **The language of paths.**  A text is read exactly if the grammar derives it, and as the path
that the derivation stands for: absolute exactly behind a leading slash, with the elements of its
segments in their order and never with a root marker. -/
theorem read_accepts_exactly_the_grammar (text : String) :
    ((∃ p, read text = .ok p) ↔ ∃ p, Written text.toList p) ∧
      (∀ p, read text = .ok p ↔ Written text.toList p) ∧
      ∀ p, read text = .ok p →
        (p.absolute = true ↔ text.toList.head? = some '/') ∧ Element.root ∉ p.elements := by
  refine ⟨exists_congr fun p => read_eq_ok_iff, fun p => read_eq_ok_iff, fun p hp => ?_⟩
  have hw : Written text.toList p := read_eq_ok_iff.mp hp
  exact ⟨hw.absolute_iff, hw.root_notMem⟩

example : read "/a1/\"x\\\"y/\"/../" = .ok ⟨[.name "a1", .name "x\"y/", .parent], true⟩ := by cbv

end Polydoc.Path
