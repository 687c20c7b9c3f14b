/-!
# Ranges of code points

A property of characters is given by the ascending list of its ranges, each with both ends in it.
A search walks the list and stops at the first range that lies beyond the number.
-/

namespace Passcode

/-- Ranges of numbers, ascending, both ends included. -/
abbrev Ranges := List (Nat × Nat)

namespace Ranges

/-- `n` lies in one of the ranges. -/
def covers : Ranges → Nat → Bool
  | [], _ => false
  | (first, last) :: rest, n =>
    if n < first then false
    else if n ≤ last then true
    else covers rest n

end Ranges

end Passcode
