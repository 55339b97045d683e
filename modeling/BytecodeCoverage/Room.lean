-- SUMMARY: How many lines there is room for.

/-!
# Room

Lines are kept from the first on, with gaps for those that were not seen, so a line far down takes
the room of all before it. How many lines there is room for is up to the machine. Only so many gaps
can be counted off at once on any machine, and none has room for more lines than that.
-/

namespace BytecodeCoverage

/-- The greatest number of lines that can be counted off at once. -/
def gapLimit : Nat := 0x7FFFFFFFFFFFFFFF

/-- The number of lines that there is room for. -/
structure Room where
  lines : Nat
  lines_le : lines ≤ gapLimit
  deriving Repr, DecidableEq

/-- The room of what does not say otherwise. -/
def Room.usual : Room := ⟨0x10000000, Nat.le_of_ble_eq_true rfl⟩

end BytecodeCoverage
