/-
Classes of characters given as ascending ranges of code points.
-/

set_option autoImplicit false

namespace OutlineTex.Text

/-- Membership of a code point in one of the ranges, both ends included. The ranges
ascend, so the search stops at the first that begins beyond the code point. -/
def inRanges (n : Nat) : List (Nat × Nat) → Bool
  | [] => false
  | (first, last) :: rest => if n < first then false else n ≤ last || inRanges n rest

end OutlineTex.Text
