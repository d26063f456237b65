/-
  Gzip/Inflate.lean --- deflated streams: blocks of octets, stored as they are or as code words for
  octets and for copies of what came before.

  A copy may reach back 32768 octets.  What lies in front of the first octet counts as zeros.
-/
import Polydoc.Gzip.PrefixCode

set_option autoImplicit false

namespace Polydoc

namespace Gzip

/-! ## Symbols -/

/-- The least length of a copy with a symbol, and how many bits are added to it. -/
def copyLengths : List (Nat × Nat) :=
  [(3, 0), (4, 0), (5, 0), (6, 0), (7, 0), (8, 0), (9, 0), (10, 0), (11, 1), (13, 1), (15, 1),
   (17, 1), (19, 2), (23, 2), (27, 2), (31, 2), (35, 3), (43, 3), (51, 3), (59, 3), (67, 4),
   (83, 4), (99, 4), (115, 4), (131, 5), (163, 5), (195, 5), (227, 5), (258, 0)]

/-- The least distance of a copy with a symbol, and how many bits are added to it. -/
def copyDistances : List (Nat × Nat) :=
  [(1, 0), (2, 0), (3, 0), (4, 0), (5, 1), (7, 1), (9, 2), (13, 2), (17, 3), (25, 3), (33, 4),
   (49, 4), (65, 5), (97, 5), (129, 6), (193, 6), (257, 7), (385, 7), (513, 8), (769, 8),
   (1025, 9), (1537, 9), (2049, 10), (3073, 10), (4097, 11), (6145, 11), (8193, 12), (12289, 12),
   (16385, 13), (24577, 13)]

/-- Reads what is added to the least value of a symbol. -/
def sized? (table : List (Nat × Nat)) (symbol : Nat) (bits : Bits) : Option (Nat × Bits) :=
  match table[symbol]? with
  | none => none
  | some (least, extra) => (bits.number? extra).map fun (n, bits) => (least + n, bits)

/-- Copies `length` octets, each from `distance` octets before its place. -/
def copy (out : Array UInt8) (distance : Nat) : Nat → Array UInt8
  | 0 => out
  | length + 1 =>
    let b := if distance ≤ out.size then out.getD (out.size - distance) 0 else 0
    copy (out.push b) distance length

/-! ## Codes of a block -/

/-- The codes of a block: one for octets, lengths of copies and the end of the block, and one for
the distances of copies. -/
structure Codes where
  literals : PrefixCode
  distances : PrefixCode

/-- The codes of a block that has none of its own. -/
def fixedCodes : Codes :=
  ⟨.ofLengths (List.replicate 144 8 ++ List.replicate 112 9 ++ List.replicate 24 7
      ++ List.replicate 8 8),
   .ofLengths (List.replicate 30 5)⟩

/-- The order in which the code for lengths is given. -/
def lengthOrder : List Nat :=
  [16, 17, 18, 0, 8, 7, 9, 6, 10, 5, 11, 4, 12, 3, 13, 2, 14, 1, 15]

/-- Reads `n` numbers of three bits. -/
def threeBits? : Nat → Bits → Option (List Nat × Bits)
  | 0, bits => some ([], bits)
  | n + 1, bits =>
    match bits.number? 3 with
    | none => none
    | some (m, bits) => (threeBits? n bits).map fun (ms, bits) => (m :: ms, bits)

theorem length_of_threeBits? {n : Nat} {ms : List Nat} {bits rest : Bits}
    (h : threeBits? n bits = some (ms, rest)) : rest.length ≤ bits.length := by
  induction n generalizing ms bits with
  | zero =>
    simp only [threeBits?, Option.some.injEq, Prod.mk.injEq] at h
    simp [h.2]
  | succ n ih =>
    simp only [threeBits?] at h
    split at h
    · simp at h
    · next m mid hm =>
      simp only [Option.map_eq_some_iff, Prod.exists, Prod.mk.injEq] at h
      obtain ⟨_, _, hmore, _, rfl⟩ := h
      have := Bits.length_of_number? hm
      have := ih hmore
      omega

/-- Reads `count` lengths of code words, of which `last` came before; a symbol may repeat one. -/
def lengths? (code : PrefixCode) (count : Nat) (last : Option Nat) (bits : Bits) :
    Option (List Nat × Bits) :=
  if count = 0 then some ([], bits)
  else
    match _h : code.symbol? bits with
    | none => none
    | some (symbol, rest) =>
      if symbol < 16 then
        (lengths? code (count - 1) (some symbol) rest).map fun (ns, bits) => (symbol :: ns, bits)
      else
        let repeated : Option (Nat × Nat × Nat) :=
          if symbol = 16 then last.map fun n => (n, 3, 2)
          else if symbol = 17 then some (0, 3, 3)
          else some (0, 11, 7)
        match repeated with
        | none => none
        | some (value, least, extra) =>
          match _h' : rest.number? extra with
          | none => none
          | some (more, rest') =>
            let times := least + more
            if count < times then none
            else
              (lengths? code (count - times) (some value) rest').map fun (ns, bits) =>
                (List.replicate times value ++ ns, bits)
  termination_by bits.length
  decreasing_by
    · exact PrefixCode.length_of_symbol? _h
    · have := PrefixCode.length_of_symbol? _h
      have := Bits.length_of_number? _h'
      omega

theorem length_of_lengths? {code : PrefixCode} {count : Nat} {last : Option Nat}
    {ns : List Nat} {bits rest : Bits} (h : lengths? code count last bits = some (ns, rest)) :
    rest.length ≤ bits.length := by
  fun_induction lengths? code count last bits generalizing ns with
  | case1 =>
    simp only [Option.some.injEq, Prod.mk.injEq] at h
    simp [h.2]
  | case3 _ _ _ _ _ _ hsymbol _ ih =>
    simp only [Option.map_eq_some_iff, Prod.exists, Prod.mk.injEq] at h
    obtain ⟨_, _, hmore, _, rfl⟩ := h
    have := PrefixCode.length_of_symbol? hsymbol
    have := ih hmore
    omega
  | case7 =>
    rename_i hsymbol _ _ _ _ _ _ _ _ hnumber _ _ ih
    simp only [Option.map_eq_some_iff, Prod.exists, Prod.mk.injEq] at h
    obtain ⟨_, _, hmore, _, rfl⟩ := h
    have := PrefixCode.length_of_symbol? hsymbol
    have := Bits.length_of_number? hnumber
    have := ih hmore
    omega
  | _ => cases h

/-- The code with the given lengths, unless some bits would be no start of a code word; a code with
at most one word is allowed. -/
def code? (lengths : List Nat) : Option PrefixCode :=
  let code := PrefixCode.ofLengths lengths
  if code.isComplete || code.size ≤ 1 then some code else none

/-- Reads the codes of a block. -/
def codes? (bits : Bits) : Option (Codes × Bits) := do
  let (literals, bits) ← bits.number? 5
  let (distances, bits) ← bits.number? 5
  let (orders, bits) ← bits.number? 4
  let literals := literals + 257
  let distances := distances + 1
  if 286 < literals ∨ 30 < distances then none
  let (given, bits) ← threeBits? (orders + 4) bits
  let lengths := (List.range 19).map fun symbol =>
    ((lengthOrder.zip given).lookup symbol).getD 0
  let code := PrefixCode.ofLengths lengths
  if !code.isComplete then none
  let (lengths, bits) ← lengths? code (literals + distances) none bits
  let literalCode ← code? (lengths.take literals)
  let distanceCode ← code? (lengths.drop literals)
  return (⟨literalCode, distanceCode⟩, bits)

theorem length_of_codes? {codes : Codes} {bits rest : Bits}
    (h : codes? bits = some (codes, rest)) : rest.length ≤ bits.length := by
  simp only [codes?, Option.bind_eq_bind, Option.bind_eq_some_iff, Prod.exists] at h
  obtain ⟨_, _, hliterals, _, _, hdistances, _, _, horders, h⟩ := h
  split at h
  · cases h
  · simp only [Option.bind_eq_some_iff, Prod.exists] at h
    obtain ⟨_, _, hgiven, h⟩ := h
    split at h
    · cases h
    · simp only [Option.bind_eq_some_iff, Option.pure_def, Option.some.injEq, Prod.mk.injEq,
        Prod.exists] at h
      obtain ⟨_, _, hlengths, _, _, _, _, _, rfl⟩ := h
      have := Bits.length_of_number? hliterals
      have := Bits.length_of_number? hdistances
      have := Bits.length_of_number? horders
      have := length_of_threeBits? hgiven
      have := length_of_lengths? hlengths
      omega

/-! ## Blocks -/

/-- Reads the distance of a copy. -/
def distance? (codes : Codes) (bits : Bits) : Option (Nat × Bits) :=
  (codes.distances.symbol? bits).bind fun (symbol, bits) => sized? copyDistances symbol bits

/-- Reads the rest of a copy whose length has the symbol `symbol`: its length and its distance. -/
def copy? (codes : Codes) (symbol : Nat) (bits : Bits) : Option ((Nat × Nat) × Bits) :=
  (sized? copyLengths symbol bits).bind fun (length, bits) =>
    (distance? codes bits).map fun (distance, bits) => ((length, distance), bits)

theorem length_of_sized? {table : List (Nat × Nat)} {symbol n : Nat} {bits rest : Bits}
    (h : sized? table symbol bits = some (n, rest)) : rest.length ≤ bits.length := by
  unfold sized? at h
  split at h
  · simp at h
  · simp only [Option.map_eq_some_iff, Prod.exists, Prod.mk.injEq] at h
    obtain ⟨_, _, hn, _, rfl⟩ := h
    have := Bits.length_of_number? hn
    omega

theorem length_of_copy? {codes : Codes} {symbol : Nat} {bits rest : Bits} {c : Nat × Nat}
    (h : copy? codes symbol bits = some (c, rest)) : rest.length ≤ bits.length := by
  simp only [copy?, distance?, Option.bind_eq_some_iff, Option.map_eq_some_iff, Prod.exists,
    Prod.mk.injEq] at h
  obtain ⟨_, mid, hl, _, _, ⟨_, far, hs, hd⟩, _, rfl⟩ := h
  have := length_of_sized? hl
  have := PrefixCode.length_of_symbol? hs
  have := length_of_sized? hd
  omega

/-- What a block is made of. -/
inductive Item where
  | octet (value : UInt8)
  | copy (length distance : Nat)
  | ending

/-- Reads an item of a block. -/
def item? (codes : Codes) (bits : Bits) : Option (Item × Bits) :=
  (codes.literals.symbol? bits).bind fun (symbol, bits) =>
    if symbol < 256 then some (.octet (UInt8.ofNat symbol), bits)
    else if symbol = 256 then some (.ending, bits)
    else
      (copy? codes (symbol - 257) bits).map fun ((length, distance), bits) =>
        (.copy length distance, bits)

theorem length_of_item? {codes : Codes} {bits rest : Bits} {item : Item}
    (h : item? codes bits = some (item, rest)) : rest.length < bits.length := by
  simp only [item?, Option.bind_eq_some_iff, Prod.exists] at h
  obtain ⟨symbol, mid, hs, h⟩ := h
  have := PrefixCode.length_of_symbol? hs
  split at h
  · simp only [Option.some.injEq, Prod.mk.injEq] at h
    simpa [← h.2]
  · split at h
    · simp only [Option.some.injEq, Prod.mk.injEq] at h
      simpa [← h.2]
    · simp only [Option.map_eq_some_iff, Prod.exists, Prod.mk.injEq] at h
      obtain ⟨_, _, _, hc, _, rfl⟩ := h
      have := length_of_copy? hc
      omega

/-- Reads the items of a block, behind what was read before. -/
def coded? (codes : Codes) (out : Array UInt8) (bits : Bits) : Option (Array UInt8 × Bits) :=
  match _h : item? codes bits with
  | none => none
  | some (.octet b, rest) => coded? codes (out.push b) rest
  | some (.copy length distance, rest) => coded? codes (copy out distance length) rest
  | some (.ending, rest) => some (out, rest)
  termination_by bits.length
  decreasing_by all_goals exact length_of_item? _h

theorem length_of_coded? {codes : Codes} {out octets : Array UInt8} {bits rest : Bits}
    (h : coded? codes out bits = some (octets, rest)) : rest.length ≤ bits.length := by
  fun_induction coded? codes out bits with
  | case1 => cases h
  | case2 _ _ _ _ hitem ih =>
    have := length_of_item? hitem
    have := ih h
    omega
  | case3 _ _ _ _ _ hitem ih =>
    have := length_of_item? hitem
    have := ih h
    omega
  | case4 _ _ _ hitem =>
    simp only [Option.some.injEq, Prod.mk.injEq] at h
    have := length_of_item? hitem
    rw [← h.2]
    omega

/-- Reads a block that is stored as it is. -/
def stored? (out : Array UInt8) (bits : Bits) : Option (Array UInt8 × Bits) := do
  let (length, bits) ← bits.align.number? 16
  let (complement, bits) ← bits.number? 16
  if length + complement ≠ 2 ^ 16 - 1 then none
  let (octets, bits) ← bits.octets? length
  return (out ++ octets.toArray, bits)

theorem length_of_stored? {out octets : Array UInt8} {bits rest : Bits}
    (h : stored? out bits = some (octets, rest)) : rest.length ≤ bits.length := by
  simp only [stored?, Option.bind_eq_bind, Option.bind_eq_some_iff, Prod.exists] at h
  obtain ⟨_, _, hlength, _, _, hcomplement, h⟩ := h
  split at h
  · cases h
  · simp only [Option.bind_eq_some_iff, Option.pure_def, Option.some.injEq, Prod.mk.injEq,
      Prod.exists] at h
    obtain ⟨_, _, hoctets, _, rfl⟩ := h
    have := Bits.length_align_le bits
    have := Bits.length_of_number? hlength
    have := Bits.length_of_number? hcomplement
    have := Bits.length_of_octets? hoctets
    omega

/-- Reads the body of a block of the given kind. -/
def block? (kind : Nat) (out : Array UInt8) (bits : Bits) : Option (Array UInt8 × Bits) :=
  match kind with
  | 0 => stored? out bits
  | 1 => coded? fixedCodes out bits
  | 2 => (codes? bits).bind fun (codes, bits) => coded? codes out bits
  | _ => none

theorem length_of_block? {kind : Nat} {out octets : Array UInt8} {bits rest : Bits}
    (h : block? kind out bits = some (octets, rest)) : rest.length ≤ bits.length := by
  unfold block? at h
  split at h
  · exact length_of_stored? h
  · exact length_of_coded? h
  · simp only [Option.bind_eq_some_iff, Prod.exists] at h
    obtain ⟨_, _, hcodes, hcoded⟩ := h
    exact Nat.le_trans (length_of_coded? hcoded) (length_of_codes? hcodes)
  · cases h

/-- Reads blocks up to the last one. -/
def blocks? (out : Array UInt8) (bits : Bits) : Option (Array UInt8 × Bits) :=
  match _hlast : bits.number? 1 with
  | none => none
  | some (last, behind) =>
    match _hkind : behind.number? 2 with
    | none => none
    | some (kind, body) =>
      match _hblock : block? kind out body with
      | none => none
      | some (out, rest) => if last = 1 then some (out, rest) else blocks? out rest
  termination_by bits.length
  decreasing_by
    have := Bits.length_of_number? _hlast
    have := Bits.length_of_number? _hkind
    have := length_of_block? _hblock
    omega

/-- The octets that a stream holds, and what is left behind it from the next octet on. -/
def inflate? (bits : Bits) : Option (List UInt8 × Bits) :=
  (blocks? #[] bits).map fun (out, rest) => (out.toList, rest.align)

end Gzip

end Polydoc
