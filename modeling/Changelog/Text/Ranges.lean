/-!
# Sets of characters given by ranges

A character class of a standard is a list of closed ranges of code points.
-/

namespace Changelog.Text

/-- Whether a code point lies in one of the ranges. -/
def inRanges (ranges : List (Nat × Nat)) (n : Nat) : Bool :=
  ranges.any fun r => decide (r.1 ≤ n) && decide (n ≤ r.2)

end Changelog.Text
