/-!
# Tables of code points

A character class that follows no rule is a table of ranges of code points.
-/

namespace Pipeline.Text

/-- A class given by the first and last code points of its ranges. -/
abbrev CodeRanges := List (Nat × Nat)

/-- Membership in the class of a table. -/
def CodeRanges.has (table : CodeRanges) (c : Char) : Bool :=
  table.any fun range => range.1 ≤ c.toNat && c.toNat ≤ range.2

end Pipeline.Text
