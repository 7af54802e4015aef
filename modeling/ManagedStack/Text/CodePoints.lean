namespace ManagedStack

/-!
# Sets of code points

A property of characters is given by the closed ranges of code points that have
it.  The ranges of a property are ascending and apart, so that a property has one
list of ranges only; the properties of this library are those of Unicode 17.0.
-/

/-- Closed ranges of code points, each with its first and its last. -/
abbrev CodePointRanges := List (Nat × Nat)

namespace CodePointRanges

/-- Whether a code point lies in one of the ranges. -/
def contains
    (ranges : CodePointRanges)
    (codePoint : Nat) :
    Bool :=
  ranges.any fun range => range.1 ≤ codePoint && codePoint ≤ range.2

end CodePointRanges

end ManagedStack
