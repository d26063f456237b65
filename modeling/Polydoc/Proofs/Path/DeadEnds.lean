/-
  Proofs/Path/DeadEnds.lean --- errors of the path reader stand at the earliest dead end.

  A text is viable when it can be continued to a path.  Whatever the reader has taken is viable, in
  each of its modes; and the character that it refuses is refused whatever stands behind it, since
  no move looks further than the character in front.  So an error tells the longest viable part of
  the text.  Only a text that ends inside quotes is refused though all of it is viable.
-/
import Polydoc.Proofs.Path.Reading

set_option autoImplicit false

namespace Polydoc.Path

/-! ## Viable texts -/

/-- A text that can be continued to one that is read as a path. -/
def Viable (cs : List Char) : Prop :=
  ∃ more p, readChars (cs ++ more) = .ok p

theorem Viable.left {cs ds : List Char} (h : Viable (cs ++ ds)) : Viable cs := by
  obtain ⟨more, p, hp⟩ := h
  exact ⟨ds ++ more, p, by rwa [← List.append_assoc]⟩

theorem Viable.take {cs : List Char} (h : Viable cs) (count : Nat) : Viable (cs.take count) := by
  rw [← List.take_append_drop count cs] at h
  exact h.left

/-- The text is viable up to the position, but not with the character that stands there. -/
structure DeadEnd (cs : List Char) (position : Nat) (c : Char) : Prop where
  found : cs[position]? = some c
  before : Viable (cs.take position)
  through : ¬ Viable (cs.take (position + 1))

/-! ## Quotes -/

/-- Where the end of a text stands: outside of quotes, inside, or inside behind a backslash. -/
inductive Quotes where
  | outside
  | inside
  | escaped
  deriving DecidableEq, Repr

/-- Where the end stands after one more character. -/
def Quotes.next : Quotes → Char → Quotes
  | .outside, c => if c = '"' then .inside else .outside
  | .inside, c => if c = '"' then .outside else if c = '\\' then .escaped else .inside
  | .escaped, _ => .inside

/-- Where the end of a text stands. -/
def quotesAfter (cs : List Char) : Quotes :=
  cs.foldl Quotes.next .outside

/-- A quote has been opened in the text and is not closed. -/
def QuoteOpen (cs : List Char) : Prop :=
  quotesAfter cs ≠ .outside

theorem Quotes.next_outside {c : Char} (h : c ≠ '"') : Quotes.outside.next c = .outside :=
  if_neg h

theorem Quotes.next_inside {c : Char} (hquote : c ≠ '"') (hbackslash : c ≠ '\\') :
    Quotes.inside.next c = .inside := by
  rw [next, if_neg hquote, if_neg hbackslash]

theorem quotesAfter_snoc (cs : List Char) (c : Char) :
    quotesAfter (cs ++ [c]) = (quotesAfter cs).next c := by
  rw [quotesAfter, List.foldl_append]
  rfl

/-- Where the end of what a reader has taken stands, by the mode it is in. -/
def Mode.quotes : Mode → Quotes
  | .quoted => .inside
  | .escape => .escaped
  | _ => .outside

/-- What an error says of the text that is refused: where the earliest dead end is, or that there is
none and a quote is open. -/
def ReadError.PointsInto (cs : List Char) : ReadError → Prop
  | .unexpectedCharacter position found _ => DeadEnd cs position found
  | .emptyElement position => DeadEnd cs position '/'
  | .invalidElement position _ =>
    (cs.drop position).take 3 = ['.', '.', '.'] ∧ DeadEnd cs (position + 2) '.'
  | .unexpectedEnd position => position = cs.length ∧ Viable cs ∧ QuoteOpen cs

namespace Scan

/-! ## What has been taken is viable -/

/-- In every mode the segments can be completed. -/
theorem exists_body_of_knows {s : Scan} {taken : List Char} (h : s.Knows taken) :
    ∃ more es, Body (taken ++ more) es := by
  obtain ⟨rest, position, mode, pending, found⟩ := s
  have hdone {text : List Char} {es : List Element} (more : List Char)
      (htext : taken ++ more = text) (hbody : Body text es) : ∃ more es, Body (taken ++ more) es :=
    ⟨more, es, htext ▸ hbody⟩
  have hnil : taken ++ [] = taken := List.append_nil taken
  cases mode with
  | start => exact hdone [] hnil (Opened.body h)
  | bare =>
    obtain ⟨before, htaken, hopened, hname | ⟨(hpending : pending = []), _⟩⟩ := h
    · exact hdone [] (hnil.trans htaken) (.segments (hopened.close (.bare hname)))
    · subst hpending
      rw [List.append_nil] at htaken
      exact hdone [] (hnil.trans htaken) hopened.body
  | quoted =>
    obtain ⟨before, inner, htaken, hopened, hinner⟩ := h
    have hclose : taken ++ ['"'] = before ++ '"' :: (inner ++ ['"']) := by simp [htaken]
    exact hdone _ hclose (.segments (hopened.close (.quoted hinner)))
  | escape =>
    obtain ⟨before, inner, htaken, hopened, hinner⟩ := h
    have hescaped : QuotedText (inner ++ ['\\', '"']) (pending ++ ['"']) :=
      hinner.append (.escaped .nil)
    have hclose : taken ++ ['"', '"'] = before ++ '"' :: (inner ++ ['\\', '"'] ++ ['"']) := by
      simp [htaken]
    exact hdone _ hclose (.segments (hopened.close (.quoted hescaped)))
  | separator => exact hdone [] hnil (.segments h)
  | dots =>
    obtain ⟨before, htaken, hopened, hone | htwo | ⟨(hpending : pending = []), _⟩⟩ := h
    · exact hdone [] (hnil.trans htaken) (.segments (hopened.close (segment_dots (.inl hone))))
    · exact hdone [] (hnil.trans htaken) (.segments (hopened.close (segment_dots (.inr htwo))))
    · subst hpending
      rw [List.append_nil] at htaken
      exact hdone [] (hnil.trans htaken) hopened.body

/-! ## What stands behind the character in front -/

/-- The reader has come to a state by what it has taken alone: it comes there whatever stands behind
the character in front, and its mode tells where the end of what it has taken stands. -/
structure Follows (first : Nat) (taken : List Char) (s : Scan) : Prop where
  anew : ∀ more, more.head? = s.rest.head? →
    run (begin first (taken ++ more)) = run { s with rest := more }
  quotes : quotesAfter taken = s.mode.quotes

theorem follows_begin (first : Nat) (text : List Char) : Follows first [] (begin first text) :=
  ⟨fun _ _ => rfl, rfl⟩

section Moving

variable {first : Nat} {text taken rest : List Char} {c : Char} {s t : Scan}

/-- A move that takes the character in front. -/
theorem Follows.take (h : Follows first taken s) (hr : s.rest = c :: rest)
    (hmove : ∀ more, Move { s with rest := c :: more } { t with rest := more })
    (hquotes : s.mode.quotes.next c = t.mode.quotes) : Follows first (taken ++ [c]) t where
  anew more _ := by
    rw [List.append_assoc, List.singleton_append, h.anew (c :: more) (by rw [hr]; rfl)]
    exact (hmove more).run_eq
  quotes := by rw [quotesAfter_snoc, h.quotes, hquotes]

/-- A move that hands the character in front to another mode. -/
theorem Follows.hand (h : Follows first taken s) (hr : s.rest = c :: rest)
    (ht : t.rest = c :: rest)
    (hmove : ∀ more, Move { s with rest := c :: more } { t with rest := c :: more })
    (hquotes : s.mode.quotes = t.mode.quotes) : Follows first taken t where
  anew more hmore := by
    rw [ht] at hmore
    cases more with
    | nil => cases hmore
    | cons d more =>
      cases hmore
      rw [h.anew (c :: more) (by rw [hr]; rfl)]
      exact (hmove more).run_eq
  quotes := h.quotes.trans hquotes

/-- A move either takes the character in front or leaves it there. -/
theorem Move.follows (hm : Move s t) (h : Follows first taken s) :
    (t.rest = s.rest ∧ Follows first taken t) ∨
      ∃ c, s.rest = c :: t.rest ∧ Follows first (taken ++ [c]) t := by
  cases hm with
  | openQuote => exact .inr ⟨_, rfl, h.take rfl (fun _ => .openQuote) rfl⟩
  | toBare notQuote => exact .inl ⟨rfl, h.hand rfl rfl (fun _ => .toBare notQuote) rfl⟩
  | toDots => exact .inl ⟨rfl, h.hand rfl rfl (fun _ => .toDots) rfl⟩
  | letter hfirst =>
    have hquote := ne_of_isLetter hfirst Text.isLetterOrNumeral_quote
    exact .inr ⟨_, rfl, h.take rfl (fun _ => .letter hfirst) (Quotes.next_outside hquote)⟩
  | @letterOrDigit c _ _ _ _ begun other =>
    have hquote : c ≠ '"' := by
      rintro rfl
      rw [Text.isLetterOrNumeral_quote] at other
      cases other
    exact .inr ⟨_, rfl, h.take rfl (fun _ => .letterOrDigit begun other)
      (Quotes.next_outside hquote)⟩
  | endBare begun => exact .inl ⟨rfl, h.hand rfl rfl (fun _ => .endBare begun) rfl⟩
  | backslash => exact .inr ⟨_, rfl, h.take rfl (fun _ => .backslash) rfl⟩
  | escaped => exact .inr ⟨_, rfl, h.take rfl (fun _ => .escaped) rfl⟩
  | plain notQuote notBackslash =>
    exact .inr ⟨_, rfl, h.take rfl (fun _ => .plain notQuote notBackslash)
      (Quotes.next_inside notQuote notBackslash)⟩
  | closeQuote => exact .inr ⟨_, rfl, h.take rfl (fun _ => .closeQuote) rfl⟩
  | dot room => exact .inr ⟨_, rfl, h.take rfl (fun _ => .dot room) rfl⟩
  | endDots => exact .inl ⟨rfl, h.hand rfl rfl (fun _ => .endDots) rfl⟩
  | slash => exact .inr ⟨_, rfl, h.take rfl (fun _ => .slash) rfl⟩

/-- A state that the reader of a text comes to, with what it has taken of the text. -/
def Comes (first : Nat) (text : List Char) (s : Scan) : Prop :=
  ∃ taken, Reads first text taken s ∧ Follows first taken s

theorem comes_begin (first : Nat) (text : List Char) : Comes first text (begin first text) :=
  ⟨[], reads_begin first text, follows_begin first text⟩

theorem Move.comes (hm : Move s t) (h : Comes first text s) : Comes first text t := by
  obtain ⟨taken, hreads, hfollows⟩ := h
  obtain ⟨taken', hreads'⟩ := hm.reads ⟨taken, hreads⟩
  -- what is left of the text tells what has been taken
  have hsplit : taken' ++ t.rest = taken ++ s.rest := hreads'.split.trans hreads.split.symm
  rcases hm.follows hfollows with ⟨hrest, hfollows'⟩ | ⟨c, hrest, hfollows'⟩
  · rw [hrest] at hsplit
    exact ⟨taken, List.append_cancel_right hsplit ▸ hreads', hfollows'⟩
  · rw [hrest, List.append_cons] at hsplit
    exact ⟨taken ++ [c], List.append_cancel_right hsplit ▸ hreads', hfollows'⟩

end Moving

/-- Only inside quotes a text may not end. -/
theorem finish_cases (s : Scan) :
    (s.mode.quotes = .outside ∧ ∃ es, s.finish = .ok es) ∨
      (s.mode.quotes ≠ .outside ∧ s.finish = .error (.unexpectedEnd s.position)) := by
  obtain ⟨rest, position, mode, pending, found⟩ := s
  cases mode with
  | quoted => exact .inr ⟨nofun, rfl⟩
  | escape => exact .inr ⟨nofun, rfl⟩
  | start => exact .inl ⟨rfl, _, rfl⟩
  | bare => exact .inl ⟨rfl, _, rfl⟩
  | separator => exact .inl ⟨rfl, _, rfl⟩
  | dots => exact .inl ⟨rfl, _, rfl⟩

end Scan

/-- The reader comes to a character that it refuses, or to the end of the text. -/
theorem readElements_cases (first : Nat) (text : List Char) :
    (∃ s e taken, Scan.Reads first text taken s ∧ Scan.Follows first taken s ∧ Scan.Refusal s e ∧
        readElements first text = .error e) ∨
      ∃ s, Scan.Reads first text text s ∧ Scan.Follows first text s ∧
        readElements first text = s.finish := by
  cases hrun : (Scan.begin first text).run with
  | error e =>
    obtain ⟨s, ⟨taken, hreads, hfollows⟩, hrefusal⟩ :=
      Scan.refusal_of_run Scan.Move.comes hrun (Scan.comes_begin first text)
    exact .inl ⟨s, e, taken, hreads, hfollows, hrefusal, by rw [readElements, hrun]; rfl⟩
  | ok s =>
    obtain ⟨⟨taken, hreads, hfollows⟩, hend⟩ :=
      Scan.run_invariant Scan.Move.comes hrun (Scan.comes_begin first text)
    cases hreads.taken_eq hend
    exact .inr ⟨s, hreads, hfollows, by rw [readElements, hrun]; rfl⟩

/-! ## The slash in front -/

/-- A text in two parts: the slash of an absolute path, if there is one, and what its elements are
read from. -/
structure Lead (lead body : List Char) (absolute : Bool) : Prop where
  written : ∀ {cs : List Char} {es : List Element}, Body cs es → Written (lead ++ cs) ⟨es, absolute⟩
  read : ∀ {cs : List Char}, cs.head? = body.head? →
    readChars (lead ++ cs) = (readElements lead.length cs).map fun es => ⟨es, absolute⟩
  outside : quotesAfter lead = .outside

theorem exists_lead (cs : List Char) :
    ∃ lead body absolute, cs = lead ++ body ∧ Lead lead body absolute := by
  by_cases hslash : cs.head? = some '/'
  · cases cs with
    | nil => cases hslash
    | cons c body =>
      cases hslash
      exact ⟨['/'], body, true, rfl, ⟨.absolute, fun _ => rfl, rfl⟩⟩
  · refine ⟨[], cs, false, rfl, ⟨.relative, fun {ds} hds => ?_, rfl⟩⟩
    rw [List.nil_append]
    unfold readChars
    split
    · exact absurd hds.symm hslash
    · rfl

section Leading

variable {lead body taken : List Char} {absolute : Bool} {s : Scan} {e : ReadError}

theorem Lead.quotesAfter_append (hl : Lead lead body absolute) (cs : List Char) :
    quotesAfter (lead ++ cs) = quotesAfter cs := by
  rw [quotesAfter, List.foldl_append]
  exact congrArg (cs.foldl Quotes.next) hl.outside

/-- What has been taken of a text, with the slash in front. -/
theorem Lead.viable (hl : Lead lead body absolute) (h : s.Knows taken) : Viable (lead ++ taken) := by
  obtain ⟨more, es, hbody⟩ := Scan.exists_body_of_knows h
  refine ⟨more, ⟨es, absolute⟩, ?_⟩
  rw [List.append_assoc]
  exact readChars_eq_ok_iff.mpr (hl.written hbody)

/-- A text is refused at a dead end. -/
theorem Lead.deadEnd (hl : Lead lead body absolute) (hreads : s.Reads lead.length body taken)
    (hfollows : s.Follows lead.length taken) (h : s.Refusal e) :
    ∃ c, s.rest.head? = some c ∧ DeadEnd (lead ++ body) s.position c := by
  obtain ⟨c, rest, hrest, hrefused⟩ := h.run_eq
  have hbody : taken ++ c :: rest = body := hrest ▸ hreads.split
  have hposition : s.position = (lead ++ taken).length := by
    rw [hreads.position_eq, List.length_append]
  have htext : lead ++ body = lead ++ taken ++ c :: rest := by rw [← hbody, List.append_assoc]
  refine ⟨c, by rw [hrest]; rfl, ?_⟩
  rw [hposition, htext]
  refine ⟨by simp, ?_, ?_⟩
  · rw [List.take_left]
    exact hl.viable hreads.knows
  · rintro ⟨more, p, hp⟩
    -- the reader comes to the same state in front of the same character, and refuses it
    have hhead : (taken ++ c :: more).head? = body.head? := by rw [← hbody]; simp
    have hrun : readElements lead.length (taken ++ c :: more) = .error e := by
      rw [readElements, hfollows.anew (c :: more) (by rw [hrest]; rfl), hrefused more]
      rfl
    have hsplit : (lead ++ taken ++ c :: rest).take ((lead ++ taken).length + 1) ++ more =
        lead ++ (taken ++ c :: more) := by
      rw [List.take_length_add_append]
      simp
    rw [hsplit, hl.read hhead, hrun] at hp
    cases hp

/-- An error on a character tells the dead end. -/
theorem Lead.pointsInto_of_refusal (hl : Lead lead body absolute)
    (hreads : s.Reads lead.length body taken) (hfollows : s.Follows lead.length taken)
    (h : s.Refusal e) : e.PointsInto (lead ++ body) := by
  obtain ⟨c, hfront, hdead⟩ := hl.deadEnd hreads hfollows h
  cases h with
  | emptyElement => cases hfront; exact hdead
  | notLetter => cases hfront; exact hdead
  | notLetterOrDigit => cases hfront; exact hdead
  | notSlash => cases hfront; exact hdead
  | notDotOrSlash => cases hfront; exact hdead
  | @thirdDot rest position pending found full =>
    cases hfront
    obtain ⟨before, htaken, -, (hdots : pending = ['.']) | (hdots : pending = ['.', '.']) |
      ⟨(hdots : pending = []), -⟩⟩ := hreads.knows
    case inl => simp [hdots] at full
    case inr.inr => simp [hdots] at full
    subst hdots
    have hposition : position = (lead ++ before).length + 2 := by
      have := hreads.position_eq
      simp [htaken] at this ⊢
      omega
    have htext : lead ++ body = lead ++ before ++ '.' :: '.' :: '.' :: rest := by
      rw [← hreads.split, htaken]
      simp
    subst hposition
    have hstart : (lead ++ before).length + 2 + 1 - (['.', '.'] ++ ['.']).length =
        (lead ++ before).length := rfl
    rw [hstart]
    refine ⟨?_, hdead⟩
    rw [htext, List.drop_left]
    rfl

end Leading

/-! ## Errors point at the earliest dead end -/

/-- A text is read with all its quotes closed, or the error points at where it cannot go on. -/
theorem readChars_cases (cs : List Char) :
    (¬ QuoteOpen cs ∧ ∃ p, readChars cs = .ok p) ∨
      ∃ e, readChars cs = .error e ∧ e.PointsInto cs := by
  obtain ⟨lead, body, absolute, rfl, hl⟩ := exists_lead cs
  rw [hl.read rfl]
  rcases readElements_cases lead.length body with
    ⟨s, e, taken, hreads, hfollows, hrefusal, hread⟩ | ⟨s, hreads, hfollows, hread⟩
  · exact .inr ⟨e, by rw [hread]; rfl, hl.pointsInto_of_refusal hreads hfollows hrefusal⟩
  · have hquotes : quotesAfter (lead ++ body) = s.mode.quotes :=
      (hl.quotesAfter_append body).trans hfollows.quotes
    rw [hread, QuoteOpen, hquotes]
    rcases s.finish_cases with ⟨hclosed, es, hfinish⟩ | ⟨hopen, hfinish⟩
    · exact .inl ⟨not_not_intro hclosed, ⟨es, absolute⟩, by rw [hfinish]; rfl⟩
    · have hend : s.position = (lead ++ body).length := by
        rw [hreads.position_eq, List.length_append]
      have hquote : QuoteOpen (lead ++ body) := by rwa [QuoteOpen, hquotes]
      exact .inr ⟨.unexpectedEnd s.position, by rw [hfinish]; rfl, hend, hl.viable hreads.knows,
        hquote⟩

/-- A text with a dead end is not viable, so an error on a viable text is its end. -/
theorem ReadError.PointsInto.eq_of_viable {cs : List Char} {e : ReadError} (h : e.PointsInto cs)
    (hviable : Viable cs) : e = .unexpectedEnd cs.length := by
  cases e with
  | unexpectedCharacter => exact absurd (hviable.take _) h.through
  | emptyElement => exact absurd (hviable.take _) h.through
  | invalidElement => exact absurd (hviable.take _) h.2.through
  | unexpectedEnd => rw [h.1]

/-- **Errors of the path reader point at the earliest dead end.**  The text before the character
that an error tells can be continued to a path, and with that character it cannot; a segment of dots
is told at its first dot and refused at its third.  Only a text that is viable and has an open quote
ends unexpectedly, and the position is then its length. -/
theorem read_errors_point_at_dead_ends (text : String) :
    (∀ e, read text = .error e → e.PointsInto text.toList) ∧
      ∀ position, read text = .error (.unexpectedEnd position) ↔
        position = text.toList.length ∧ Viable text.toList ∧ QuoteOpen text.toList := by
  have hpoints : ∀ e, read text = .error e → e.PointsInto text.toList := by
    intro e h
    rcases readChars_cases text.toList with ⟨-, p, hp⟩ | ⟨other, hother, hinto⟩
    · cases h.symm.trans hp
    · cases h.symm.trans hother
      exact hinto
  refine ⟨hpoints, fun position => ⟨fun h => hpoints _ h, ?_⟩⟩
  rintro ⟨rfl, hviable, hopen⟩
  rcases readChars_cases text.toList with ⟨hclosed, -⟩ | ⟨e, he, hinto⟩
  · exact absurd hopen hclosed
  · exact he.trans (congrArg _ (hinto.eq_of_viable hviable))

/-- The third dot is the dead end. -/
example : read "/a/.../b" = .error (.invalidElement 3 "...") := by cbv

end Polydoc.Path
