/-!
# Ranges of characters

A class of characters is given as the list of its intervals of code points.
-/
namespace Dbml.Text

/-- Whether a character lies in one of the intervals, both ends included. -/
def inRanges (ranges : List (Nat × Nat)) (c : Char) : Bool :=
  ranges.any fun range => range.1 ≤ c.toNat && c.toNat ≤ range.2

end Dbml.Text
