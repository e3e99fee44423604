/-!
# Sets of characters given by ranges

A property of characters that a standard defines by listing code points is kept as a list of
ranges, each inclusive at both ends and in ascending order.

* `inRanges table n` — the code point `n` lies in one of the ranges.
-/

namespace DeclChunk.Text

/-- The number lies in one of the ranges, ends included. -/
def inRanges (table : List (Nat × Nat)) (n : Nat) : Bool :=
  table.any fun r => decide (r.1 ≤ n) && decide (n ≤ r.2)

end DeclChunk.Text
