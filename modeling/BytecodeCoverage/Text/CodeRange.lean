-- SUMMARY: Sets of characters given as ascending ranges of code points.

/-!
# Ranges of code points

A property of characters is written down as the ranges of code points that have it.
The tables of this folder are such lists; a range holds both of its ends.
-/

namespace BytecodeCoverage.Text

/-- The first and the last code point of a range. -/
abbrev CodeRange := Nat × Nat

def CodeRange.holds (r : CodeRange) (c : Char) : Bool :=
  r.1 ≤ c.toNat && c.toNat ≤ r.2

/-- Whether some range of the table holds the character. -/
def inRanges (table : List CodeRange) (c : Char) : Bool :=
  table.any (·.holds c)

theorem inRanges_iff {table : List CodeRange} {c : Char} :
    inRanges table c = true ↔ ∃ r ∈ table, r.1 ≤ c.toNat ∧ c.toNat ≤ r.2 := by
  simp [inRanges, CodeRange.holds]

end BytecodeCoverage.Text
