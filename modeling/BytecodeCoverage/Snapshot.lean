-- SUMMARY: Snapshots of a file's coverage, line by line, with its totals.
import BytecodeCoverage.Coverage.File
import BytecodeCoverage.Fault
import BytecodeCoverage.Room

/-!
# Snapshots

A file snapshot lists the lines of a file from line 1 on, with gaps where no instruction was seen.
Gaps take room, so a line far down may find none. The totals of a snapshot are stored beside the
lines. Counting the lines again tells whether they are up to date.
-/

namespace BytecodeCoverage

structure LineSnapshot where
  coverage : CoverageClass
  counts : List Int := []
  startsFunction : Bool := false
  endsFunction : Bool := false
  deriving Repr, DecidableEq

namespace LineSnapshot

def ofLine (l : Line) : LineSnapshot :=
  { coverage := l.coverage
    counts := l.counts
    startsFunction := l.startsFunction
    endsFunction := l.endsFunction }

/-- Whether two snapshots of a line report the same coverage. Function marks do not count. -/
def agrees (a b : LineSnapshot) : Bool := a.coverage = b.coverage && a.counts = b.counts

end LineSnapshot

structure FileSnapshot where
  filename : String
  totals : Tally := {}
  /-- The line at index `i` is source line `i + 1`. -/
  lines : Array (Option LineSnapshot) := #[]
  deriving Repr, DecidableEq

namespace FileSnapshot

def line? (s : FileSnapshot) (i : Nat) : Option LineSnapshot := (s.lines[i]?).join

/-- Put a line, with gaps before it if the snapshot is too short. -/
def setLine (s : FileSnapshot) (i : Nat) (line : LineSnapshot) : FileSnapshot :=
  let room := s.lines ++ Array.replicate (i + 1 - s.lines.size) none
  { s with lines := room.setIfInBounds i (some line) }

/-- Put a line, if there is room for it and for the gaps before it. -/
def putLine (s : FileSnapshot) (i : Nat) (line : LineSnapshot) (room : Room := .usual) :
    Except Fault FileSnapshot :=
  if gapLimit < i + 1 - s.lines.size then .error .gapTooLong
  else if room.lines < i + 1 then .error .outOfRoom
  else .ok (s.setLine i line)

/-- Put a line at an index that may count from the end, as far as there are lines. -/
def putLineAt (s : FileSnapshot) (i : Int) (line : LineSnapshot) (room : Room := .usual) :
    Except Fault FileSnapshot :=
  if 0 ≤ i then s.putLine i.toNat line room
  else if -i ≤ s.lines.size then .ok (s.setLine (s.lines.size + i).toNat line)
  else .error .noSuchLine

/-- The tally of the lines as they are. -/
def recount (s : FileSnapshot) : Tally :=
  .ofClasses (s.lines.filterMap fun line => line.map (·.coverage)).toList

def retotal (s : FileSnapshot) : FileSnapshot := { s with totals := s.recount }

/-- The lines that a snapshot of the file shows: those numbered from one. -/
def isShown (number : Int) : Bool := 1 ≤ number

/-- The snapshot of a file, if there is room for its lines. -/
def ofFile (f : File) (room : Room := .usual) : Except Fault FileSnapshot := do
  let shown := f.lines.toList.filter fun entry => isShown entry.1
  let filled ← shown.foldlM
    (fun (s : FileSnapshot) entry => s.putLine (entry.1 - 1).toNat (.ofLine entry.2) room)
    { filename := f.filename }
  return filled.retotal

theorem putLine_eq_ok {s : FileSnapshot} {i : Nat} (line : LineSnapshot) {room : Room}
    (h : i < room.lines) : s.putLine i line room = .ok (s.setLine i line) := by
  have hgap : ¬ gapLimit < i + 1 - s.lines.size := by
    have := room.lines_le
    omega
  rw [putLine, if_neg hgap, if_neg (Nat.not_lt.2 h)]

theorem line?_setLine (s : FileSnapshot) (i j : Nat) (line : LineSnapshot) :
    (s.setLine i line).line? j = if i = j then some line else s.line? j := by
  have hroom : i < (s.lines ++ Array.replicate (i + 1 - s.lines.size) none).size := by
    simp only [Array.size_append, Array.size_replicate]
    omega
  by_cases h : i = j
  · subst h
    simp [setLine, line?, Array.getElem?_setIfInBounds_self_of_lt hroom]
  · simp only [setLine, line?, Array.getElem?_setIfInBounds_ne h, if_neg h]
    rw [Array.getElem?_append]
    split
    · rfl
    · rename_i hj
      rw [Array.getElem?_eq_none (by omega : s.lines.size ≤ j), Array.getElem?_replicate]
      split <;> rfl

@[simp] theorem filename_setLine (s : FileSnapshot) (i : Nat) (line : LineSnapshot) :
    (s.setLine i line).filename = s.filename := rfl

@[simp] theorem totals_setLine (s : FileSnapshot) (i : Nat) (line : LineSnapshot) :
    (s.setLine i line).totals = s.totals := rfl

theorem size_setLine (s : FileSnapshot) (i : Nat) (line : LineSnapshot) :
    (s.setLine i line).lines.size = max s.lines.size (i + 1) := by
  simp only [setLine, Array.size_setIfInBounds, Array.size_append, Array.size_replicate]
  omega

end FileSnapshot

end BytecodeCoverage
