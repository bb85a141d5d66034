/-!
# Sets of code points given by ranges

A property of characters that a standard fixes by enumeration is stored as a list of closed
ranges. The list is read as the union of its ranges, so its order does not matter.
-/

namespace Reckon.Text

/-- A finite union of closed ranges of code points. -/
abbrev Ranges := List (Nat × Nat)

/-- Whether one of the ranges holds the code point of `c`. -/
def Ranges.contains (ranges : Ranges) (c : Char) : Bool :=
  ranges.any fun range => range.1 ≤ c.toNat && c.toNat ≤ range.2

end Reckon.Text
