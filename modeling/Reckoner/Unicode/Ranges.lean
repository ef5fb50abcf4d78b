/-!
# Sets of code points

A Unicode property is given as a list of closed ranges in ascending order. Looking a code point up
stops at the first range that starts beyond it.
-/

namespace Reckoner.Unicode

/-- Closed ranges of code points in ascending order. -/
abbrev CodeRanges := List (Nat × Nat)

/-- Whether a code point lies in one of the ranges. -/
def CodeRanges.contains : CodeRanges → Nat → Bool
  | [], _ => false
  | (first, last) :: rest, n =>
    if n < first then false
    else if n ≤ last then true
    else CodeRanges.contains rest n

end Reckoner.Unicode
