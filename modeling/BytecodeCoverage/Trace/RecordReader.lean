-- SUMMARY: Cutting the lines of a trace into records.
import BytecodeCoverage.Trace.Row

/-!
# Record reader

A record runs from a header to the next end marker. Lines between records are skipped, and a
header inside a record is a line of that record. Records whose header is a sentinel of the
dialect are read and dropped.
-/

namespace BytecodeCoverage

structure RecordReader where
  /-- The lines of the record that is open, `none` between records. -/
  openRecord : Option (Array String) := none
  deriving Repr, DecidableEq

namespace RecordReader

def inRecord (r : RecordReader) : Bool := r.openRecord.isSome

/-- Take one line, and give the record that it closes, if it closes one. Sentinels included. -/
def close (r : RecordReader) (line : String) : RecordReader × Option (List String) :=
  match r.openRecord with
  | none => (if isHeader line then ⟨some #[line]⟩ else r, none)
  | some lines =>
    if isEndMarker line then (⟨none⟩, some (lines.push line).toList)
    else (⟨some (lines.push line)⟩, none)

end RecordReader

def Dialect.isSentinel (d : Dialect) (record : List String) : Bool :=
  match record with
  | [] => false
  | header :: _ => d.sentinelHeaders.contains header

namespace RecordReader

/-- Take one line, and give the record that it closes unless that is a sentinel's. -/
def step (d : Dialect) (r : RecordReader) (line : String) :
    RecordReader × Option (List String) :=
  let (r, record) := r.close line
  (r, record.filter fun lines => !d.isSentinel lines)

/-- The records of some lines, and the reader after them. -/
def records (d : Dialect) (r : RecordReader) : List String → RecordReader × List (List String)
  | [] => (r, [])
  | line :: rest =>
    let (r', record) := r.step d line
    let (last, more) := r'.records d rest
    (last, record.toList ++ more)

end RecordReader

end BytecodeCoverage
