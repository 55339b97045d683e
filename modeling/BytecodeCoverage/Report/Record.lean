-- SUMMARY: Coverage as JSON records.
import BytecodeCoverage.Json.Writer
import BytecodeCoverage.Snapshot

/-!
# Records

A file's record has its name, its four totals and a list with an entry for each line from the first
on, `null` for lines without data. Function marks are written only where they are set.
-/

namespace BytecodeCoverage

def LineSnapshot.record (l : LineSnapshot) (number : Int) : Json :=
  .obj ([("linenum", .int number), ("coverage", .str l.coverage.word),
      ("counts", .arr (l.counts.map .int))] ++
    (if l.startsFunction then [("startFunc", .bool true)] else []) ++
    (if l.endsFunction then [("endFunc", .bool true)] else []))

def FileSnapshot.record (s : FileSnapshot) : Json :=
  .obj [("filename", .str s.filename), ("covered", .int s.totals.full),
    ("partial", .int s.totals.mixed), ("uncovered", .int s.totals.missed),
    ("dead", .int s.totals.dead),
    ("lines", .arr (s.lines.toList.zipIdx.map fun (line, i) =>
      match line with
      | some l => l.record (i + 1)
      | none => .null))]

/-- The records of some files. -/
def records (snapshots : List FileSnapshot) : Json := .arr (snapshots.map (·.record))

end BytecodeCoverage
