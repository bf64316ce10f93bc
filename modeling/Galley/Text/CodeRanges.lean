/-! # Ranges of code points

A property of characters is a list of closed ranges of code points, ascending and apart.
-/

namespace Galley

/-- Closed ranges of code points, each with its first and its last member. -/
abbrev CodeRanges :=
  List (Nat × Nat)

namespace CodeRanges

/-- Whether a code point lies in one of the ranges. -/
def contains (ranges : CodeRanges) (code : Nat) : Bool :=
  ranges.any fun (first, last) => first ≤ code && code ≤ last

end CodeRanges
end Galley
