/-
  Text/CodeRange.lean --- sets of characters given as ranges of code points.
-/
set_option autoImplicit false

namespace Polydoc.Text

/-- A closed range of code points, given by its first and its last member. -/
abbrev CodeRange : Type := Nat × Nat

/-- Whether `c` lies in one of the ranges. -/
def inRanges (ranges : List CodeRange) (c : Char) : Bool :=
  ranges.any fun r => r.1 ≤ c.toNat && c.toNat ≤ r.2

end Polydoc.Text
