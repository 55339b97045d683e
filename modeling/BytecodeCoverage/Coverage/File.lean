-- SUMMARY: The lines of a file, and the files that some scripts make.
import BytecodeCoverage.Coverage.Line
import BytecodeCoverage.Script.Basic
import Std.Data.TreeMap

/-!
# Files

A file holds its lines by number. Lines come into being when something is put on them. Relocation
can move lines to numbers below one; a file keeps them, but its reports leave them out.

Grouping puts each instruction of each script on its line, under the script's name and the
instruction's address, and marks the lines of the first and the last instruction: they roughly
bracket the function. A key of which a number is too long cannot be written, and then there are no
files.
-/

namespace BytecodeCoverage

structure File where
  filename : String
  haltMnemonic : String
  lines : Std.TreeMap Int Line := ∅

namespace File

def line? (f : File) (number : Int) : Option Line := f.lines[number]?

/-- Change a line, which comes into being if it is not there. -/
def modifyLine (f : File) (number : Int) (change : Line → Line) : File :=
  { f with
    lines := f.lines.alter number fun old =>
      some (change (old.getD { number, haltMnemonic := f.haltMnemonic })) }

/-- The lines in ascending order. -/
def lineList (f : File) : List Line := f.lines.toList.map (·.2)

/-- The file after the counts of some lines have been asked for. -/
def settle (f : File) (asked : Int → Bool) : File :=
  { f with lines := f.lines.map fun number l => if asked number then l.settle else l }

def tally (f : File) : Tally := .ofClasses (f.lineList.map (·.coverage))

def coverageClass (f : File) (number : Int) : CoverageClass :=
  match f.line? number with
  | some l => l.coverage
  | none => .insignificant

/-- How many of the powers of ten up to the ninth a count has reached. -/
def magnitude (count : Int) : Nat :=
  ((List.range 9).filter fun k => (Nat.pow 10 (k + 1) : Int) ≤ count).length

/-- The order of magnitude of the highest count on a line. -/
def profileBucket (f : File) (number : Int) : Nat :=
  match f.line? number with
  | some l => (l.counts.getLast?.map magnitude).getD 0
  | none => 0

theorem line?_modifyLine (f : File) (number number' : Int) (change : Line → Line) :
    (f.modifyLine number change).line? number' =
      if number = number' then
        some (change ((f.line? number).getD { number, haltMnemonic := f.haltMnemonic }))
      else f.line? number' := by
  simp [modifyLine, line?, Std.TreeMap.getElem?_alter]

/-- The key of an instruction on its line. -/
def keyOf (s : Script) (ins : Instruction) : String := s.name ++ ":" ++ toString ins.address

/-- Mark the lines that a script starts and ends on, if it has instructions. -/
def markEnds (f : File) (s : Script) : File :=
  match s.instructions[0]?, s.instructions.back? with
  | some first, some last =>
    (f.modifyLine first.sourceLine fun l => { l with startsFunction := true }).modifyLine
      last.sourceLine fun l => { l with endsFunction := true }
  | _, _ => f

/-- Put the instructions of a script on their lines. -/
def addScript (f : File) (s : Script) : File :=
  let filled := s.instructions.toList.foldl
    (fun f ins => f.modifyLine ins.sourceLine (·.add (keyOf s ins) ins)) f
  filled.markEnds s

end File

/-- The files of some scripts, by name, as long as their keys can be written. -/
def groupByFile (haltMnemonic : String) (scripts : List Script) : Std.TreeMap String File :=
  scripts.foldl
    (fun files s => files.alter s.filename fun old =>
      some ((old.getD { filename := s.filename, haltMnemonic }).addScript s))
    ∅

/-- Whether the keys of the instructions can be written. A script without any has no keys. -/
def Script.keysAreWritable (s : Script) : Bool :=
  s.instructions.all fun ins => s.nameIsWritable && Numeral.isWritable ins.address

/-- The files of some scripts, if the keys of all instructions can be written. -/
def groupScripts (haltMnemonic : String) (scripts : List Script) :
    Except Fault (Std.TreeMap String File) :=
  if scripts.all Script.keysAreWritable then .ok (groupByFile haltMnemonic scripts)
  else .error .overlongNumber

end BytecodeCoverage
