-- SUMMARY: What is worth telling about the reading of a trace, apart from its result.
import BytecodeCoverage.Coverage.File
import BytecodeCoverage.Log
import BytecodeCoverage.Session
import BytecodeCoverage.Text.Quoted

/-!
# Diagnostics

Reading a trace passes over some things in silence. Diagnostics follow the reading step by step and
tell them in the order in which they come up, as far as the reading gets.
-/

namespace BytecodeCoverage

/-- Something that the reading of a trace passed over. -/
inductive Remark where
  | sentinelDropped (header : String)
  /-- A continuation line before the first instruction. -/
  | strayContinuation (script : String)
  | dumpMerged (script : String)
  /-- A jump without a target. -/
  | targetMissing (script text : String) (address : Int)
  | parsed (scripts files : Nat)
  deriving Repr, DecidableEq

namespace Remark

def source : Remark → LogSource
  | .sentinelDropped _ => .records
  | .strayContinuation _ => .scripts
  | .dumpMerged _ => .scripts
  | .targetMissing .. => .search
  | .parsed .. => .engine

def message : Remark → String
  | .sentinelDropped header => "discarding sentinel record " ++ header
  | .strayContinuation script => "continuation line before any instruction in " ++ script
  | .dumpMerged script => "merging repeated dump of " ++ script
  | .targetMissing script text address =>
    script ++ ": " ++ Text.quote text ++ " at " ++ toString address ++ " has no jump target"
  | .parsed scripts files =>
    "parsed " ++ toString scripts ++ " scripts across " ++ toString files ++ " files"

def toLog (r : Remark) : LogRecord := ⟨.debug, r.source, r.message⟩

end Remark

/-- The remarks on the lines of a record, from a draft on. -/
def Draft.remarks (g : Grammar) (d : Draft) : List String → List Remark
  | [] => []
  | line :: rest =>
    match d.addLine g.dialect g.relocate line with
    | .error _ => []
    | .ok d' =>
      let isStray := match Row.read g.dialect line with
        | .ok (.continuation _) => d.script.instructions.isEmpty
        | _ => false
      (if isStray then [.strayContinuation d.script.name] else []) ++ d'.remarks g rest

/-- The remarks on the search of a script. -/
def Script.searchRemarks (s : Script) : List Remark :=
  (s.search.trail.filterMap (s.instructions[·]?)).filterMap fun ins =>
    if Script.lacksTarget ins then some (.targetMissing s.name ins.text ins.address) else none

namespace Session

/-- The remarks on a script that a record gave. -/
def scriptRemarks (s : Session) (script : Script) : List Remark :=
  match script.sign with
  | .error _ => []
  | .ok signature =>
    match s.find? signature with
    | some (_, kept) => [.dumpMerged kept.name]
    | none => script.searchRemarks

def recordRemarks (g : Grammar) (s : Session) (record : List String) : List Remark :=
  Draft.remarks g {} record ++
    match Script.ofRecord g.dialect g.relocate record with
    | .error _ => []
    | .ok script => s.scriptRemarks script

def lineRemarks (g : Grammar) (s : Session) (line : String) : List Remark :=
  match (s.reader.close line).2 with
  | none => []
  | some record =>
    if g.dialect.isSentinel record then [.sentinelDropped (record.headD "")]
    else s.recordRemarks g record

/-- The remarks on some lines, up to the first that fails. -/
def remarks (g : Grammar) : Session → List String → List Remark
  | _, [] => []
  | s, line :: rest =>
    s.lineRemarks g line ++
      match s.addLine g line with
      | (s', none) => s'.remarks g rest
      | (_, some _) => []

end Session

/-- The remark on the scripts and the files of a text, if it has any. -/
def dumpRemark (g : Grammar) (text : String) : Except Fault Remark := do
  let scripts ← scriptsOf g text
  let files ← groupScripts g.dialect.haltMnemonic scripts
  return .parsed scripts.length files.size

/-- The remarks on a text that is a whole trace. -/
def traceRemarks (g : Grammar) (text : String) : List Remark :=
  Session.remarks g {} (Text.splitLines text) ++ (dumpRemark g text).toOption.toList

end BytecodeCoverage
