/-!
# Ranges of Code Points

Character classes are given as lists of closed ranges of code points.
-/

namespace GuestCore.Text

/-- Whether a code point lies in one of the closed ranges. -/
def inRanges (ranges : List (Nat × Nat)) (code : Nat) : Bool :=
  ranges.any fun range ↦ range.1 ≤ code && code ≤ range.2

end GuestCore.Text
