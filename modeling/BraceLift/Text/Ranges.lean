/-
Classes of characters as tables of ranges of code points.
-/
import BraceLift.Text.Basic

namespace BraceLift.Text

/-- Whether some range of a table holds the code point. -/
def inRanges (ranges : List (Nat × Nat)) (n : Nat) : Bool :=
  ranges.any fun range => range.1 ≤ n && n ≤ range.2

end BraceLift.Text
