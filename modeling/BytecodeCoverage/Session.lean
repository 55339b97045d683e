-- SUMMARY: Turning trace text into analyzed scripts, each of them once.
import BytecodeCoverage.Room
import BytecodeCoverage.Script.Draft
import BytecodeCoverage.Script.Search
import BytecodeCoverage.Text.Lines
import BytecodeCoverage.Trace.RecordReader

/-!
# Sessions

A session reads one trace. A record of a script that the session has not seen is searched for
reachable instructions and registered under its signature. Another dump of a registered script
only adds its counts. All of this that can fail comes before anything is changed, so a record that
fails leaves the session as it was, and the session goes on from there.
-/

namespace BytecodeCoverage

/-- What traces are read with: the dialect, the relocation, and the room for the lines of a file. -/
structure Grammar where
  dialect : Dialect := {}
  relocate : Relocation := Relocation.identity
  room : Room := .usual

/-- No scripts need no rows in a table. -/
theorem Session.linked_nil :
    ([] : List (String × Nat)).map (·.2) = List.range ([] : List Script).length := rfl

/-- The scripts of a session, and the table that tells them by their signatures. -/
@[ext] structure Session where
  reader : RecordReader := {}
  /-- The registered scripts, in the order of their first records. -/
  scripts : List Script := []
  /-- The positions of the scripts by the signatures that they were registered with. -/
  table : List (String × Nat) := []
  /-- Every script has a row of its own in the table. -/
  linked : table.map (·.2) = List.range scripts.length := by exact Session.linked_nil
  deriving Repr, DecidableEq

namespace Session

/-- The registered script of a signature, with its position. -/
def find? (s : Session) (signature : String) : Option (Nat × Script) :=
  (s.table.lookup signature).bind fun i => s.scripts[i]?.map (i, ·)

/-- Put another script in the place of one. -/
def put (s : Session) (i : Nat) (script : Script) : Session :=
  { s with
    scripts := s.scripts.set i script
    linked := by rw [List.length_set, s.linked] }

/-- Put a script behind the others, and its signature into the table. -/
def append (s : Session) (signature : String) (script : Script) : Session :=
  { s with
    scripts := s.scripts ++ [script]
    table := s.table ++ [(signature, s.scripts.length)]
    linked := by
      rw [List.map_append, s.linked, List.length_append, List.length_singleton, List.range_succ]
      rfl }

/-- Register a script, or add its counts to those of its earlier record. -/
def takeScript (s : Session) (script : Script) : Session × Option Fault :=
  match script.sign with
  | .error e => (s, some e)
  | .ok signature =>
    match s.find? signature with
    | some (i, kept) =>
      match kept.addCounts script with
      | .ok merged => (s.put i merged, none)
      | .error e => (s, some e)
    | none =>
      match script.analyze with
      | .ok marked => (s.append signature marked, none)
      | .error e => (s, some e)

/-- Take a whole record. -/
def takeRecord (g : Grammar) (s : Session) (record : List String) : Session × Option Fault :=
  match Script.ofRecord g.dialect g.relocate record with
  | .ok script => s.takeScript script
  | .error e => (s, some e)

/-- The session after a whole record, if the record does not fail. -/
def addRecord (g : Grammar) (s : Session) (record : List String) : Except Fault Session :=
  match s.takeRecord g record with
  | (s', none) => .ok s'
  | (_, some e) => .error e

/-- The position of a script among those of the session, told by its signature. -/
def position? (s : Session) (script : Script) : Option Nat := s.table.lookup script.signature

/-- Take one line of a trace. The line is used up even if the record that it closes fails. -/
def addLine (g : Grammar) (s : Session) (line : String) : Session × Option Fault :=
  let (reader, record) := s.reader.step g.dialect line
  let s := { s with reader }
  match record with
  | none => (s, none)
  | some record => s.takeRecord g record

/-- Take lines up to the first that fails. -/
def addLines (g : Grammar) : Session → List String → Session × Option Fault
  | s, [] => (s, none)
  | s, line :: rest =>
    match s.addLine g line with
    | (s', none) => s'.addLines g rest
    | (s', some e) => (s', some e)

/-- Take the lines of a text. -/
def parse (g : Grammar) (s : Session) (text : String) : Session × Option Fault :=
  s.addLines g (Text.splitLines text)

end Session

/-- The scripts of a text that is a whole trace. -/
def scriptsOf (g : Grammar) (text : String) : Except Fault (List Script) :=
  match Session.parse g {} text with
  | (s, none) => .ok s.scripts
  | (_, some e) => .error e

end BytecodeCoverage
