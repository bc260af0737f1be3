/-!
# Ranges of code points

Membership of a character in a table of inclusive ranges, which is how the character classes of this
library are given.
-/

namespace FormDesign.Text

/-- Whether the code point of `c` lies in one of the inclusive ranges of `table`. -/
def inRanges (table : List (Nat × Nat)) (c : Char) : Bool :=
  table.any fun range => range.1 ≤ c.toNat && c.toNat ≤ range.2

/-- A character is in a table when it is in one of its ranges. -/
theorem inRanges_iff {table : List (Nat × Nat)} {c : Char} :
    inRanges table c = true ↔ ∃ range ∈ table, range.1 ≤ c.toNat ∧ c.toNat ≤ range.2 := by
  simp [inRanges, List.any_eq_true]

end FormDesign.Text
