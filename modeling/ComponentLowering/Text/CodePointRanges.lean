/-
# Ranges of code points

Sets of characters as lists of inclusive ranges of their code points.
-/

namespace ComponentLowering.Text

/-- Whether a code point lies in one of some inclusive ranges. -/
def inRanges (ranges : List (Nat × Nat)) (n : Nat) : Bool :=
  ranges.any fun range => range.1 ≤ n && n ≤ range.2

end ComponentLowering.Text
