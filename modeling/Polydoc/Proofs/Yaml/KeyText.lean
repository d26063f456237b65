/-
  Proofs/Yaml/KeyText.lean --- which keys have the same text.

  The text of a number says which number it is, and whether it is an integer or a float; it is that
  of no boolean.  So two different keys have the same text only where one is a text itself, the
  written form of the other.
-/
import Polydoc.Proofs.Yaml.FloatText
import Polydoc.Yaml.Reader

set_option autoImplicit false

namespace Polydoc

namespace Yaml

open Binary64

/-! ## Floats -/

/-- The sign and the decimal that a text spells. -/
def signedDecimal? (cs : List Char) : Option (Bool × ℕ × ℤ) :=
  match cs with
  | '-' :: rest => (decimalOf? rest).map fun d => (true, d)
  | cs => (decimalOf? cs).map fun d => (false, d)

theorem decimalOf?_minus (rest : List Char) : decimalOf? ('-' :: rest) = none := rfl

section Floats

variable {x y : Binary64}

theorem not_isNaN_of_isFinite (hx : x.isFinite = true) : x.isNaN = false := by
  simp only [isFinite, bne_iff_ne] at hx
  simp [isNaN, hx]

theorem write_of_isFinite (hx : x.isFinite = true) : (Value.layout.write x).toList =
    (if x.negative then ['-'] else []) ++ Value.layout.magnitudeText x := by
  rw [Layout.write, not_isNaN_of_isFinite hx, hx, if_neg Bool.false_ne_true, if_neg (by decide),
    String.toList_ofList]

/-- The text of a finite number spells its sign and a decimal that rounds to it. -/
theorem signedDecimal?_write (hx : x.isFinite = true) :
    ∃ d : Decimal, signedDecimal? (Value.layout.write x).toList =
        some (x.negative, d.digits, d.exponent) ∧ (interval x).holds d = true := by
  obtain ⟨d, hread, hd⟩ := decimalOf?_magnitudeText hx
  refine ⟨d, ?_, hd⟩
  rw [write_of_isFinite hx]
  cases x.negative with
  | true =>
    rw [if_pos rfl, List.singleton_append, signedDecimal?, hread]
    rfl
  | false =>
    rw [if_neg Bool.false_ne_true, List.nil_append]
    unfold signedDecimal?
    split
    · next rest htext =>
      rw [htext, decimalOf?_minus] at hread
      cases hread
    · rw [hread]
      rfl

/-- The word for what is not finite. -/
def unboundedText (nan negative : Bool) : String :=
  if nan then ".nan" else if negative then "-.inf" else ".inf"

theorem unboundedText_injective : ∀ a s b t : Bool,
    unboundedText a s = unboundedText b t → a = b ∧ (a = false → s = t) := by
  decide

theorem write_of_not_isFinite (hx : x.isFinite = false) :
    Value.layout.write x = unboundedText x.isNaN x.negative := by
  rw [Layout.write, hx]
  rfl

theorem signedDecimal?_of_not_isFinite (hx : x.isFinite = false) :
    signedDecimal? (Value.layout.write x).toList = none := by
  rw [write_of_not_isFinite hx]
  cases x.isNaN <;> cases x.negative <;> decide

theorem magnitude_of_infinite (hx : x.isFinite = false) (hnan : x.isNaN = false) :
    x.magnitude = infinityMagnitude := by
  have hbiased := biased_eq x
  have hfraction := fraction_eq x
  simp only [isFinite, bne_eq_false_iff_eq] at hx
  have hzero : x.fraction = 0 := by simpa [isNaN, hx] using hnan
  unfold infinityMagnitude
  omega

/-- Floats with the same text are the same. -/
theorem Number.same_of_write (h : Value.layout.write x = Value.layout.write y) :
    (Number.float x).same (.float y) = true := by
  have hread : signedDecimal? (Value.layout.write x).toList =
    signedDecimal? (Value.layout.write y).toList := by rw [h]
  cases hx : x.isFinite with
  | true =>
    obtain ⟨d, hdx, hd⟩ := signedDecimal?_write hx
    cases hy : y.isFinite with
    | true =>
      obtain ⟨e, hey, he⟩ := signedDecimal?_write hy
      rw [hdx, hey] at hread
      cases d
      cases e
      simp only [Option.some.injEq, Prod.mk.injEq] at hread
      obtain ⟨hsign, rfl, rfl⟩ := hread
      rw [eq_of_magnitude hsign (magnitude_eq_of_holds hd he)]
      simp [Number.same, not_isNaN_of_isFinite hy]
    | false =>
      rw [hdx, signedDecimal?_of_not_isFinite hy] at hread
      cases hread
  | false =>
    cases hy : y.isFinite with
    | true =>
      obtain ⟨e, hey, -⟩ := signedDecimal?_write hy
      rw [signedDecimal?_of_not_isFinite hx, hey] at hread
      cases hread
    | false =>
      rw [write_of_not_isFinite hx, write_of_not_isFinite hy] at h
      obtain ⟨hnan, hsign⟩ := unboundedText_injective _ _ _ _ h
      cases hnx : x.isNaN with
      | true => simp [Number.same, ← hnan, hnx]
      | false =>
        -- two infinities of one sign
        have hny : y.isNaN = false := hnan ▸ hnx
        have hmagnitude :=
          (magnitude_of_infinite hx hnx).trans (magnitude_of_infinite hy hny).symm
        rw [eq_of_magnitude (hsign hnx) hmagnitude]
        simp [Number.same, hny]

theorem exists_mem_magnitudeText (x : Binary64) :
    ∃ c ∈ Value.layout.magnitudeText x, c.isDigit = false ∧ c ≠ '-' := by
  unfold Layout.magnitudeText
  by_cases hzero : x.isZero = true
  · rw [if_pos hzero]
    exact ⟨'.', by decide, by decide⟩
  rw [if_neg hzero]
  dsimp only [Value.layout]
  split
  · refine ⟨'.', ?_, by decide⟩
    unfold positionalText
    split
    · simp
    · dsimp only
      split <;> simp
  · refine ⟨'e', ?_, by decide⟩
    simp [scientificText]

/-- The text of a float has a character that is neither a digit nor a sign. -/
theorem exists_mem_write (x : Binary64) :
    ∃ c ∈ (Value.layout.write x).toList, c.isDigit = false ∧ c ≠ '-' := by
  cases hx : x.isFinite with
  | false =>
    rw [write_of_not_isFinite hx]
    cases x.isNaN <;> cases x.negative <;> exact ⟨'.', by decide, by decide⟩
  | true =>
    obtain ⟨c, hc, hother⟩ := exists_mem_magnitudeText x
    rw [write_of_isFinite hx]
    exact ⟨c, List.mem_append_right _ hc, hother⟩

end Floats

/-! ## Integers -/

theorem mem_decimal {n : ℤ} {c : Char} (h : c ∈ (Text.decimal n).toList) :
    c.isDigit = true ∨ c = '-' := by
  rw [Text.decimal, String.toList_ofList, List.mem_append] at h
  cases h with
  | inl hsign =>
    split at hsign
    · exact .inr (List.mem_singleton.mp hsign)
    · cases hsign
  | inr hdigit => exact .inl (Text.isDigit_of_mem_toDigits hdigit)

theorem decimal_ne_write (n : ℤ) (x : Binary64) : Text.decimal n ≠ Value.layout.write x := by
  intro h
  obtain ⟨c, hc, hdigit, hsign⟩ := exists_mem_write x
  rw [← h] at hc
  cases mem_decimal hc with
  | inl hd =>
    rw [hdigit] at hd
    cases hd
  | inr hd => exact hsign hd

/-- Integers with the same text are the same. -/
theorem decimal_injective {m n : ℤ} (h : Text.decimal m = Text.decimal n) : m = n := by
  have hlist := congrArg String.toList h
  simp only [Text.decimal, String.toList_ofList] at hlist
  have hdigits (k : ℤ) (ds : List Char) : Nat.toDigits 10 k.natAbs ≠ '-' :: ds := by
    intro heq
    have hminus : '-'.isDigit = true := Text.isDigit_of_mem_toDigits (heq ▸ List.mem_cons_self)
    cases hminus
  have hnat (heq : Nat.toDigits 10 m.natAbs = Nat.toDigits 10 n.natAbs) :
      m.natAbs = n.natAbs := by
    rw [← Text.natOfDigits_toDigits m.natAbs, heq, Text.natOfDigits_toDigits]
  by_cases hm : m < 0 <;> by_cases hn : n < 0 <;>
    simp only [hm, hn, if_true, if_false, List.cons_append, List.nil_append] at hlist
  · have := hnat (List.cons.inj hlist).2
    omega
  · exact absurd hlist.symm (hdigits n _)
  · exact absurd hlist (hdigits m _)
  · have := hnat hlist
    omega

/-- Numbers with the same text are the same. -/
theorem Number.same_of_text {a b : Number} (h : a.text = b.text) : a.same b = true := by
  cases a with
  | integer m =>
    cases b with
    | integer n => simpa [Number.same] using decimal_injective h
    | float y => exact absurd h (decimal_ne_write m y)
  | float x =>
    cases b with
    | integer n => exact absurd h.symm (decimal_ne_write n x)
    | float y => exact Number.same_of_write h

theorem boolText_injective {a b : Bool} (h : boolText a = boolText b) : a = b := by
  revert a b
  decide

/-- No number is written as a boolean is. -/
theorem Number.text_ne_boolText (a : Number) (b : Bool) : a.text ≠ boolText b := by
  cases a with
  | integer n =>
    intro h
    have hmem : 'e' ∈ (Text.decimal n).toList := by
      rw [show Text.decimal n = boolText b from h]
      cases b <;> decide
    exact absurd (mem_decimal hmem) (by decide)
  | float x =>
    cases hx : x.isFinite with
    | true =>
      intro h
      obtain ⟨d, hread, -⟩ := signedDecimal?_write hx
      rw [show Value.layout.write x = boolText b from h] at hread
      cases b <;> cases hread
    | false =>
      rw [Number.text, write_of_not_isFinite hx]
      cases x.isNaN <;> cases x.negative <;> cases b <;> decide

/-! ## Keys -/

/-- A text key is the written form of a key that is a number or a boolean. -/
def Spells (k k' : Value) : Prop :=
  ∃ s, k = .string s ∧ keyText k' = .ok s ∧ ∀ t, k' ≠ .string t

/-- Keys with the same text are the same, or one spells the other. -/
theorem same_of_keyText {k k' : Value} {text : String} (hk : keyText k = .ok text)
    (hk' : keyText k' = .ok text) : Value.same k k' = true ∨ Spells k k' ∨ Spells k' k := by
  cases k with
  | string s =>
    have hs : s = text := Except.ok.inj hk
    cases k' with
    | string t =>
      have ht : t = text := Except.ok.inj hk'
      exact .inl (by rw [hs, ht, Value.same, beq_self_eq_true])
    | number b => exact .inr (.inl ⟨s, rfl, hs ▸ hk', fun _ h => by cases h⟩)
    | bool b => exact .inr (.inl ⟨s, rfl, hs ▸ hk', fun _ h => by cases h⟩)
    | _ => cases hk'
  | number a =>
    have ha : a.text = text := Except.ok.inj hk
    cases k' with
    | string t =>
      have ht : t = text := Except.ok.inj hk'
      exact .inr (.inr ⟨t, rfl, ht ▸ hk, fun _ h => by cases h⟩)
    | number b =>
      have hb : b.text = text := Except.ok.inj hk'
      exact .inl (Number.same_of_text (ha.trans hb.symm))
    | bool b =>
      have hb : boolText b = text := Except.ok.inj hk'
      exact absurd (ha.trans hb.symm) (a.text_ne_boolText b)
    | _ => cases hk'
  | bool a =>
    have ha : boolText a = text := Except.ok.inj hk
    cases k' with
    | string t =>
      have ht : t = text := Except.ok.inj hk'
      exact .inr (.inr ⟨t, rfl, ht ▸ hk, fun _ h => by cases h⟩)
    | number b =>
      have hb : b.text = text := Except.ok.inj hk'
      exact absurd (hb.trans ha.symm) (b.text_ne_boolText a)
    | bool b =>
      have hb : boolText b = text := Except.ok.inj hk'
      exact .inl (by rw [boolText_injective (ha.trans hb.symm), Value.same, beq_self_eq_true])
    | _ => cases hk'
  | _ => cases hk

end Yaml

end Polydoc
