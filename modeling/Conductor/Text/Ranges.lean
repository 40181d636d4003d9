/-! # Sets of characters given by ranges of code points -/

namespace Conductor.Text

/-- Whether the code point `n` lies in one of the ranges, ends included. -/
def inRanges (ranges : List (Nat × Nat)) (n : Nat) : Bool :=
  ranges.any fun range => range.1 ≤ n && n ≤ range.2

end Conductor.Text
