/-!
# `Text.CharRange` — classes of characters as lists of ranges

A class is a list of inclusive ranges of code points in ascending order.
-/

namespace EditorServices

/-- Inclusive ranges of code points. -/
abbrev CharRanges := List (Nat × Nat)

namespace CharRanges

/-- Whether a code point lies in one of the ranges. -/
def has (ranges : CharRanges) (n : Nat) : Bool := ranges.any fun r => r.1 ≤ n && n ≤ r.2

end CharRanges

end EditorServices
