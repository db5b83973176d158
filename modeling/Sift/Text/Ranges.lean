/-!
# Character classes given by ranges

A class of characters is a list of inclusive code point ranges in increasing order.
-/

namespace Sift.Text

/-- Whether the code point of `c` lies in one of the inclusive ranges. -/
def inRanges (ranges : List (Nat × Nat)) (c : Char) : Bool :=
  ranges.any fun r => r.1 ≤ c.toNat && c.toNat ≤ r.2

end Sift.Text
