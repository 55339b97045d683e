-- SUMMARY: Coverage as text: a summary of files, and the lines of one file.
import BytecodeCoverage.Report.Percent
import BytecodeCoverage.Text.Column
import BytecodeCoverage.Text.Scan

/-!
# Tables

The summary has a row per file under a header. Its columns are as wide as their widest cell and two
spaces apart, the name at the left and the numbers at the right. The line table has a row per line
that has data: its number, its class, a brace for each function that starts or ends there, and its
counts.
-/

namespace BytecodeCoverage

def summaryHeader : List String := ["file", "full", "some", "none", "dead", "cover"]

/-- The text of a number, if it can be written. -/
def numberText (n : Int) : Except Fault String :=
  if Numeral.isWritable n then .ok (toString n) else .error .overlongNumber

def FileSnapshot.summaryCells (s : FileSnapshot) : Except Fault (List String) := do
  let numbers ← s.totals.toList.mapM numberText
  let percent ← s.totals.percent
  return s.filename :: (numbers ++ [percent.onePlace ++ "%"])

/-- The width of each column. -/
def columnWidths (rows : List (List String)) : List Nat :=
  rows.foldl (fun widths row => widths.zipWith max (row.map String.length))
    (List.replicate summaryHeader.length 0)

/-- A row of cells in columns, the first cell at the left and the others at the right. -/
def summaryRow (widths : List Nat) (cells : List String) : String :=
  match widths.zip cells with
  | [] => ""
  | (width, name) :: numbers =>
    Text.joinWith "  "
      (Text.padRight width name :: numbers.map fun (w, cell) => Text.padLeft w cell)

def summaryTable (snapshots : List FileSnapshot) : Except Fault String := do
  let rows ← snapshots.mapM (·.summaryCells)
  let rows := summaryHeader :: rows
  return Text.joinWith "\n" (rows.map (summaryRow (columnWidths rows)))

def LineSnapshot.marks (l : LineSnapshot) : String :=
  (if l.startsFunction then "\x7b" else "") ++ (if l.endsFunction then "\x7d" else "")

def LineSnapshot.tableRow (l : LineSnapshot) (number : Nat) : Except Fault String := do
  let counts ← l.counts.mapM numberText
  return Text.joinWith "  "
    [Text.padLeft 6 (toString number), Text.padRight 5 l.coverage.label, Text.padRight 2 l.marks,
     Text.joinWith "," counts]

def lineTable (s : FileSnapshot) : Except Fault String := do
  let shown := s.lines.toList.zipIdx.filterMap fun (line, i) => line.map (·, i + 1)
  let rows ← shown.mapM fun (line, number) => line.tableRow number
  return Text.joinWith "\n" rows

end BytecodeCoverage
