-- SUMMARY: Building a script from the lines of its record.
import BytecodeCoverage.Relocation
import BytecodeCoverage.Script.Basic
import BytecodeCoverage.Trace.Row

/-!
# Drafts

A draft is a script of which some lines have been read. Every line of a record is relocated
under the traced file name of the header before it, whatever file the header was moved to.
-/

namespace BytecodeCoverage

structure Draft where
  script : Script := {}
  /-- The file as the trace names it. -/
  tracedFile : String := ""
  deriving Repr, DecidableEq

namespace Draft

/-- Append a continuation line to the text of the last instruction. -/
def continueText (d : Draft) (text : String) : Draft :=
  let code := d.script.instructions
  let code := code.modify (code.size - 1) fun ins => { ins with text := ins.text ++ text }
  { d with script := { d.script with instructions := code } }

/-- Take what a line says. A continuation before the first instruction is passed over, but it is
reported under the script's name, which has to be writable for that. -/
def addRow (relocate : Relocation) (d : Draft) : Row → Except Fault Draft
  | .header file line =>
    let (filename, startLine) := relocate file line
    .ok { script := { d.script with filename, startLine }, tracedFile := file }
  | .entry => .ok { d with script := { d.script with entryIndex := d.script.instructions.size } }
  | .data address sourceLine count text =>
    let ins : Instruction :=
      { address, sourceLine := (relocate d.tracedFile sourceLine).2, text, count }
    .ok { d with script := { d.script with instructions := d.script.instructions.push ins } }
  | .continuation text =>
    if d.script.instructions.isEmpty then
      if d.script.nameIsWritable then .ok d else .error .overlongNumber
    else .ok (d.continueText text)
  | .finish => .ok d
  | .noise => .ok d

def addLine (dialect : Dialect) (relocate : Relocation) (d : Draft) (line : String) :
    Except Fault Draft :=
  (Row.read dialect line).bind (d.addRow relocate)

def addLines (dialect : Dialect) (relocate : Relocation) : Draft → List String → Except Fault Draft
  | d, [] => .ok d
  | d, line :: rest =>
    match d.addLine dialect relocate line with
    | .ok d' => d'.addLines dialect relocate rest
    | .error e => .error e

end Draft

/-- The script of a record. Nothing is marked reachable yet. -/
def Script.ofRecord (dialect : Dialect) (relocate : Relocation) (lines : List String) :
    Except Fault Script :=
  (Draft.addLines dialect relocate {} lines).map (·.script)

/-- The traced coordinates of a record in the order of its lines: the header's, then one per
instruction. -/
def tracedCoordinates (dialect : Dialect) (lines : List String) : List (String × Int) :=
  let rows := lines.filterMap fun line => (Row.read dialect line).toOption
  (rows.foldl
    (fun (file, found) row =>
      match row with
      | .header file line => (file, (file, (line : Int)) :: found)
      | .data _ sourceLine _ _ => (file, (file, (sourceLine : Int)) :: found)
      | _ => (file, found))
    ("", [])).2.reverse

end BytecodeCoverage
