-- SUMMARY: The covered share of a file's lines.
import BytecodeCoverage.Decimal.Shortest
import BytecodeCoverage.Snapshot

/-!
# Percentages

Lines that ran in full, in a hundred of those that could have run, computed in binary64. A file with
nothing to run has none.
-/

namespace BytecodeCoverage

/-- A whole number as a binary64 number, unless it is out of range. -/
def toReal (n : Int) : Except Fault Binary64 :=
  match Binary64.ofInt n with
  | .infinity _ => .error .tooLargeForReal
  | x => .ok x

def Tally.percent (t : Tally) : Except Fault Binary64 :=
  if t.executable = 0 then .ok .zero
  else do
    let covered ← toReal t.full
    let executable ← toReal t.executable
    return ((Binary64.ofInt 100).mul covered).div executable

end BytecodeCoverage
