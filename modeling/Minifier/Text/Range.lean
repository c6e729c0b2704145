/-!
# Ranges of code points

A class of characters is given by its code points, as a list of closed ranges in ascending order.
Main definition: `inRanges`.
-/

set_option autoImplicit false

namespace Minifier

/-- Whether a code point lies in one of the ranges, which are ascending: the search stops at the
first range that starts above it. -/
def inRanges : List (Nat × Nat) → Nat → Bool
  | [], _ => false
  | (first, last) :: rest, code =>
    if code < first then false else code ≤ last || inRanges rest code

end Minifier
