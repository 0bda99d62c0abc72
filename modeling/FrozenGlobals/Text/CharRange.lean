/-!
# Ranges of characters

Character classes are lists of code point ranges, both ends included.
-/

namespace FrozenGlobals.Text

/-- A class of characters: ranges of code points, both ends included. -/
abbrev CharRanges := List (Nat × Nat)

/-- `c` lies in one of the ranges. -/
def CharRanges.has (ranges : CharRanges) (c : Char) : Bool :=
  ranges.any fun (first, last) => first ≤ c.toNat && c.toNat ≤ last

end FrozenGlobals.Text
