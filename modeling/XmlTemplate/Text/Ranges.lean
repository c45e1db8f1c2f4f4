/-!
# Sets of characters given by ranges

The character classes of this library are finite unions of closed ranges of code points.

Results:
1. `Ranges.contains_append`: a concatenation of tables is the union of their sets.
-/

namespace XmlTemplate.Text

/-- Closed ranges of code points, from the first to the last code point of each. -/
abbrev Ranges := List (Nat × Nat)

namespace Ranges

/-- A character belongs to a table when its code point lies in one of the ranges. -/
def contains (table : Ranges) (c : Char) : Bool :=
  table.any fun range => decide (range.1 ≤ c.toNat) && decide (c.toNat ≤ range.2)

theorem contains_append (left right : Ranges) (c : Char) :
    Ranges.contains (left ++ right) c = (left.contains c || right.contains c) := by
  simp [contains]

end Ranges

end XmlTemplate.Text
