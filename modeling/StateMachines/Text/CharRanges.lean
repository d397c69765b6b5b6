/-!
# Sets of characters

A set of characters given by ranges of code points. The tables of character properties are such
sets.
-/

namespace StateMachines.Text

/-- A set of characters, as ranges of code points with both ends included. -/
structure CharRanges where
  ranges : List (Nat × Nat)
deriving Inhabited

/-- Whether a character lies in one of the ranges. -/
def CharRanges.contains (r : CharRanges) (c : Char) : Bool :=
  r.ranges.any fun range => decide (range.1 ≤ c.toNat) && decide (c.toNat ≤ range.2)

end StateMachines.Text
