/-!
# Ranges of code points

Character classes are lists of ranges of code points.
-/

namespace JavaSyntax.Text

/-- The code points from the first number through the second. -/
abbrev Range := Nat × Nat

/-- Whether the code point of `character` lies in one of the ranges. -/
def inRanges (ranges : List Range) (character : Char) : Bool :=
  ranges.any fun range => range.1 ≤ character.toNat && character.toNat ≤ range.2

end JavaSyntax.Text
