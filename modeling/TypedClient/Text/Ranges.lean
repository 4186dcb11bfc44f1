/-
  This file defines membership of a code point in a table of
  closed ranges.

  Key definitions include:
    * `Text.inRanges`
-/

namespace TypedClient

namespace Text

/- Whether some range holds a code point. -/
def inRanges (ranges : List (Nat × Nat)) (n : Nat) : Bool :=
  ranges.any fun r => r.1 ≤ n && n ≤ r.2

end Text

end TypedClient
