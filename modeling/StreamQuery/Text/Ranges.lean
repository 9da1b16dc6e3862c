/-!
# Ranges of code points

A character property is the list of the code point ranges that have it, in
increasing order. A code point is looked up from the front and the search ends
at the first range that begins after it.
-/

namespace StreamQuery.Text

/-- Ranges of code points, each given by its first and its last member, disjoint
    and in increasing order. -/
abbrev Ranges := List (Nat × Nat)

/-- Whether a code point lies in one of the ranges. -/
def Ranges.contains : Ranges → Nat → Bool
  | [], _ => false
  | (first, last) :: rest, n =>
    if n < first then false else decide (n ≤ last) || Ranges.contains rest n

end StreamQuery.Text
