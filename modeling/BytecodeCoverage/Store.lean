-- SUMMARY: The stored snapshots of all files, and the changes that a dump makes to them.
import BytecodeCoverage.Session
import BytecodeCoverage.Snapshot

/-!
# The store and its changes

The store holds one snapshot per file and only grows. A script that a later dump does not show keeps
the lines it had, so totals are counted from the stored lines and not from the dump.

What a dump changes is told before anything is stored. A file that is not known is stored as it is.
Of a known file, lines that were missing are adopted and lines that report other coverage are
revised, in ascending order; function marks stay as they were. The totals come last, if they are
out of date by then.
-/

namespace BytecodeCoverage

-- ---------------------------------------------------------------------------
-- Changes of one file
-- ---------------------------------------------------------------------------

inductive FileChange where
  /-- Store a line that was missing. -/
  | adopt (index : Nat) (line : LineSnapshot)
  /-- Store another class and other counts for a line. -/
  | revise (index : Nat) (coverage : CoverageClass) (counts : List Int)
  | retotal (totals : Tally)
  deriving Repr, DecidableEq

namespace FileSnapshot

def apply (s : FileSnapshot) : FileChange → FileSnapshot
  | .adopt i line => s.setLine i line
  | .revise i coverage counts =>
    { s with lines := s.lines.modify i fun line => line.map ({ · with coverage, counts }) }
  | .retotal totals => { s with totals }

/-- What a line of a dump changes in the stored snapshot. -/
def lineChange? (stored : FileSnapshot) (i : Nat) (line : LineSnapshot) : Option FileChange :=
  match stored.line? i with
  | none => some (.adopt i line)
  | some kept => if kept.agrees line then none else some (.revise i line.coverage line.counts)

/-- What the lines of a dump change, in ascending order. -/
def lineChanges (stored new : FileSnapshot) : List FileChange :=
  ((new.lines.mapIdx fun i line => line.bind (stored.lineChange? i)).filterMap id).toList

/-- The change of the totals, if they are out of date. -/
def totalsChange? (s : FileSnapshot) : Option FileChange :=
  if s.recount = s.totals then none else some (.retotal s.recount)

/-- What a dump of the file changes. -/
def changes (stored new : FileSnapshot) : List FileChange :=
  let lines := stored.lineChanges new
  lines ++ ((lines.foldl apply stored).totalsChange?).toList

end FileSnapshot

-- ---------------------------------------------------------------------------
-- Changes of the store
-- ---------------------------------------------------------------------------

inductive Change where
  | addFile (snapshot : FileSnapshot)
  | changeFile (file : String) (change : FileChange)
  deriving Repr, DecidableEq

structure Store where
  files : Std.TreeMap String FileSnapshot := ∅

namespace Store

def find? (s : Store) (file : String) : Option FileSnapshot := s.files[file]?

/-- The names of the known files, in ascending order. -/
def filenames (s : Store) : List String := s.files.keys

/-- The snapshots in the order of their names. -/
def snapshots (s : Store) : List FileSnapshot := s.files.toList.map (·.2)

def apply (s : Store) : Change → Store
  | .addFile snapshot => ⟨s.files.insert snapshot.filename snapshot⟩
  | .changeFile file change =>
    ⟨s.files.alter file fun stored => stored.map (·.apply change)⟩

/-- What a snapshot of a dump changes. -/
def fileChanges (s : Store) (new : FileSnapshot) : List Change :=
  match s.find? new.filename with
  | none => [.addFile new]
  | some stored => (stored.changes new).map (.changeFile new.filename)

/-- What a dump changes, file by file. -/
def changes (s : Store) (dump : List FileSnapshot) : List Change := dump.flatMap s.fileChanges

theorem find?_apply_addFile (s : Store) (snapshot : FileSnapshot) (file : String) :
    (s.apply (.addFile snapshot)).find? file =
      if snapshot.filename = file then some snapshot else s.find? file := by
  simp [apply, find?, Std.TreeMap.getElem?_insert]

theorem find?_apply_changeFile (s : Store) (name : String) (change : FileChange) (file : String) :
    (s.apply (.changeFile name change)).find? file =
      if name = file then (s.find? name).map (·.apply change) else s.find? file := by
  simp [apply, find?, Std.TreeMap.getElem?_alter]

end Store

-- ---------------------------------------------------------------------------
-- Dumps
-- ---------------------------------------------------------------------------

/-- What a trace shows of its files, in the order of their names, up to the first file that no
snapshot has room for. -/
structure Dump where
  snapshots : List FileSnapshot := []
  /-- Why the next file has no snapshot, if there is one. -/
  fault : Option Fault := none
  deriving Repr, DecidableEq

def Dump.ofFiles (room : Room) : List File → Dump
  | [] => {}
  | f :: rest =>
    match FileSnapshot.ofFile f room with
    | .error fault => { fault := some fault }
    | .ok snapshot =>
      let dump := ofFiles room rest
      { dump with snapshots := snapshot :: dump.snapshots }

/-- The dump that a text is, read as a whole trace. -/
def dumpOf (g : Grammar) (text : String) : Except Fault Dump := do
  let scripts ← scriptsOf g text
  let files ← groupScripts g.dialect.haltMnemonic scripts
  return .ofFiles g.room (files.toList.map (·.2))

end BytecodeCoverage
