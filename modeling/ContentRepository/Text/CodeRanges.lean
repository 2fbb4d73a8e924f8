/-!
# Sets of characters by code point

A character property is a list of closed ranges of code points, in ascending order.
-/

namespace ContentRepository.Text

/-- Closed ranges of code points. -/
abbrev CodeRanges := List (Nat × Nat)

/-- Whether one of the ranges holds the character. -/
def CodeRanges.contains (ranges : CodeRanges) (c : Char) : Bool :=
  ranges.any fun (low, high) => low ≤ c.toNat && c.toNat ≤ high

end ContentRepository.Text
