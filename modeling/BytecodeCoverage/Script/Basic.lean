-- SUMMARY: Scripts, their signatures, and adding the counts of two dumps of one script.
import BytecodeCoverage.Instruction
import BytecodeCoverage.Text.Scan
import Std.Data.TreeMap

/-!
# Scripts

A script is one function body, top-level unit or evaluated string as the interpreter dumps it.
Its name, the file and the start line, is not unique: several functions may start on one line.
Two dumps are of one script if their signatures agree. A signature covers the name, the
position of the entry and each instruction's address, source line and text.
-/

namespace BytecodeCoverage

structure Script where
  filename : String := ""
  startLine : Int := 0
  /-- How many instructions stand before the entry marker, if there is one. -/
  entryIndex : Option Nat := none
  instructions : Array Instruction := #[]
  deriving Repr, DecidableEq

namespace Script

def name (s : Script) : String := s.filename ++ ":" ++ toString s.startLine

/-- A start line that relocation has made too long cannot be written, so neither can the name. -/
def nameIsWritable (s : Script) : Bool := Numeral.isWritable s.startLine

def counts (s : Script) : List Int := s.instructions.toList.map (·.count)

/-- The position that an address stands for. If several instructions have it, the last. -/
def position? (s : Script) (address : Int) : Option Nat :=
  lastPosition? address s.instructions.toList

/-- Each address once, in ascending order, with the position that it stands for. -/
def addressIndex (s : Script) : List (Int × Nat) :=
  let index : Std.TreeMap Int Nat := s.instructions.toList.zipIdx.foldl
    (fun index (ins, i) => index.insert ins.address i) ∅
  index.toList

-- ---------------------------------------------------------------------------
-- Signatures
-- ---------------------------------------------------------------------------

def entryText (s : Script) : String :=
  match s.entryIndex with
  | none => "None"
  | some i => toString i

/-- The name and the entry on the first line, then a line per instruction. -/
def signature (s : Script) : String :=
  s.name ++ ":" ++ s.entryText ++ "\n" ++
    Text.joinWith "\n" (s.instructions.toList.map (·.signatureLine))

/-- What a signature covers, field by field. -/
def shape (s : Script) : String × Int × Option Nat × List (Int × Int × String) :=
  (s.filename, s.startLine, s.entryIndex, s.instructions.toList.map (·.shape))

def isWritable (s : Script) : Bool :=
  s.nameIsWritable && s.instructions.all (·.isWritable)

/-- The signature, if its numbers can be written. -/
def sign (s : Script) : Except Fault String :=
  if s.isWritable then .ok s.signature else .error .overlongNumber

-- ---------------------------------------------------------------------------
-- Merging
-- ---------------------------------------------------------------------------

/-- Add the counts of another dump, instruction by instruction. -/
def mergeCounts (s other : Script) : Script :=
  { s with
    instructions := s.instructions.mapIdx fun i ins =>
      match other.instructions[i]? with
      | some more => { ins with count := ins.count + more.count }
      | none => ins }

/-- Add the counts of another dump of the same script. -/
def addCounts (s other : Script) : Except Fault Script := do
  let theirs ← other.sign
  let ours ← s.sign
  if theirs = ours then return s.mergeCounts other
  else throw (.signatureMismatch s.name other.name)

end Script

end BytecodeCoverage
