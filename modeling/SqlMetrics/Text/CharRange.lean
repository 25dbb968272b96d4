/-!
# Sets of characters given by ranges

A class of characters is a list of ranges of code points, both ends included.
-/

set_option autoImplicit false

namespace SqlMetrics

/-- The characters whose code point lies in one of the ranges. -/
def inRanges (ranges : List (Nat × Nat)) (c : Char) : Bool :=
  ranges.any fun range => range.1 ≤ c.toNat && c.toNat ≤ range.2

end SqlMetrics
