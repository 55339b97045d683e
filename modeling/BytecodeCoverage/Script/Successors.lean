-- SUMMARY: Where control can go from an instruction of a script.
import BytecodeCoverage.Flow
import BytecodeCoverage.Script.Basic

/-!
# Successors

The positions that control can move to from an instruction. Jumps name addresses, and an address
that no instruction of the script has is a fault. A switch converts all of its offsets before it
looks up the first target.
-/

namespace BytecodeCoverage

namespace Script

/-- The position of a jump's target, or the fault of the jump at the source address. -/
def resolve (s : Script) (source target : Int) : Except Fault Nat :=
  match s.position? target with
  | some i => .ok i
  | none =>
    if s.nameIsWritable && Numeral.isWritable source && Numeral.isWritable target then
      .error (.unresolvedTarget s.name source target)
    else .error .overlongNumber

/-- The positions that control can move to from the instruction at a position. An unconditional
jump without a target goes nowhere, but it is reported under the script's name, which has to be
writable for that. -/
def successorsOf (s : Script) (i : Nat) (ins : Instruction) : Except Fault (List Nat) :=
  match flowKind ins.text with
  | .linear => .ok [i + 1]
  | .terminator => .ok []
  | .unconditional => do
    match ← branchTarget ins.text with
    | none => if s.nameIsWritable then return [] else throw .overlongNumber
    | some target => return [← s.resolve ins.address target]
  | .conditional => do
    match ← branchTarget ins.text with
    | none => return [i + 1]
    | some target => return [i + 1, ← s.resolve ins.address target]
  | .switch => do
    (← switchOffsets ins.text).mapM fun offset => s.resolve ins.address (ins.address + offset)

/-- The positions that control can move to from a position. There are none past the end. -/
def successors (s : Script) (i : Nat) : Except Fault (List Nat) :=
  match s.instructions[i]? with
  | some ins => s.successorsOf i ins
  | none => .ok []

/-- An unconditional jump whose text names no target. -/
def lacksTarget (ins : Instruction) : Bool :=
  flowKind ins.text = .unconditional && branchDigits? ins.text.toList = none

end Script

end BytecodeCoverage
