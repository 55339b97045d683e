-- SUMMARY: The instructions of one source line, their distinct counts and the line's class.
import BytecodeCoverage.Coverage.Class
import BytecodeCoverage.Instruction

/-!
# Lines

A line holds the instructions of all scripts that map to it, each under a key. Its counts are the
distinct execution counts in ascending order, where −1 stands for code that control cannot reach.
One count alone says that every instruction ran equally often, and no count that there is
nothing to run.

Interpreters charge a run of instructions to its first, so the instruction after one that falls
through tells nothing new if it has the same count, or none after some. Its count is left out.

Instructions are only added while a file is built and counts are asked for after that, so the
first answer settles them.
-/

namespace BytecodeCoverage

-- ---------------------------------------------------------------------------
-- Counts
-- ---------------------------------------------------------------------------

/-- What an instruction tells about its line. -/
inductive Reading where
  | ran (count : Int)
  | unreachable
  deriving Repr, DecidableEq

/-- The count that stands for unreachable code. -/
def unreachableCount : Int := -1

def Reading.count : Reading → Int
  | .ran n => n
  | .unreachable => unreachableCount

/-- Whether a reachable instruction tells nothing new after the one before it on the line. -/
def isEcho (previous : Option Instruction) (ins : Instruction) : Bool :=
  match previous with
  | none => false
  | some p => p.fallsThrough && (ins.count = p.count || ins.count = 0 && p.count ≠ 0)

/-- What the instructions of a line tell, in their order. -/
def readings (previous : Option Instruction) : List Instruction → List Reading
  | [] => []
  | ins :: rest =>
    if !ins.reachable then .unreachable :: readings (some ins) rest
    else if isEcho previous ins then readings (some ins) rest
    else .ran ins.count :: readings (some ins) rest

/-- Put a number at its place, unless it is there. -/
def insertCount (n : Int) : List Int → List Int
  | [] => [n]
  | m :: rest => if n < m then n :: m :: rest else if n = m then m :: rest
    else m :: insertCount n rest

/-- The numbers in ascending order, each once. -/
def ascending (ns : List Int) : List Int := ns.foldr insertCount []

/-- Whether the readings are all of instructions that ran, equally often. -/
def ranAlike : List Reading → Bool
  | .ran n :: rest => rest.all (· = .ran n)
  | _ => false

/-- The distinct counts of the instructions of a line. A halt that control cannot reach is how
top-level units end, and alone on its line it is nothing to run. -/
def distinctCounts (haltMnemonic : String) (code : List Instruction) : List Int :=
  let told := readings none code
  if ranAlike told then (told.take 1).map (·.count)
  else if told = [.unreachable] ∧ (code.head?.map (·.text)) = some haltMnemonic then []
  else ascending (told.map (·.count))

/-- The class of a line with these counts. Unreachable code beside code that ran is left behind by
the code generator and does not count against the line. -/
def CoverageClass.ofCounts : List Int → CoverageClass
  | [] => .insignificant
  | [n] => if 0 < n then .full else if n = 0 then .missed else .dead
  | n :: m :: _ =>
    if 0 < n then .full
    else if n = unreachableCount ∧ 0 < m then .full
    else .mixed

-- ---------------------------------------------------------------------------
-- Lines
-- ---------------------------------------------------------------------------

structure Line where
  number : Int
  haltMnemonic : String
  /-- The instructions with their keys, in the order of registration. -/
  entries : List (String × Instruction) := []
  startsFunction : Bool := false
  endsFunction : Bool := false
  /-- The counts, once they have been asked for. -/
  settled : Option (List Int) := none
  deriving Repr, DecidableEq

namespace Line

def code (l : Line) : List Instruction := l.entries.map (·.2)

def keys (l : Line) : List String := l.entries.map (·.1)

def hasKey (l : Line) (key : String) : Bool := l.entries.any (·.1 = key)

/-- Register an instruction under a key. The first registration of a key stands. -/
def add (l : Line) (key : String) (ins : Instruction) : Line :=
  if l.hasKey key then l else { l with entries := l.entries ++ [(key, ins)] }

def counts (l : Line) : List Int := l.settled.getD (distinctCounts l.haltMnemonic l.code)

/-- The line after its counts have been asked for. -/
def settle (l : Line) : Line := { l with settled := some l.counts }

def coverage (l : Line) : CoverageClass := .ofCounts l.counts

@[simp] theorem counts_settle (l : Line) : l.settle.counts = l.counts := rfl

@[simp] theorem settle_settle (l : Line) : l.settle.settle = l.settle := rfl

theorem hasKey_add (l : Line) (key key' : String) (ins : Instruction) :
    (l.add key ins).hasKey key' = (l.hasKey key' || key = key') := by
  unfold add
  split
  · rename_i h
    by_cases hk : key = key' <;> simp_all
  · simp [hasKey]

end Line

end BytecodeCoverage
