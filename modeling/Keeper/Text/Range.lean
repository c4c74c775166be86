/-!
# Keeper — character ranges

Properties of characters that are given by a table of code point ranges.
-/

namespace Keeper.Text

/-- Whether a character lies in one of the ranges, ends included. -/
def inRanges (ranges : List (Nat × Nat)) (c : Char) : Bool :=
  ranges.any fun (low, high) => low ≤ c.toNat && c.toNat ≤ high

end Keeper.Text
