-- SUMMARY: Coverage classes of source lines, and how many lines are in each.

/-!
# Coverage classes
-/

namespace BytecodeCoverage

inductive CoverageClass where
  /-- All of the line ran. -/
  | full
  /-- A part of the line ran, or could have. -/
  | mixed
  /-- The line could have run and did not. -/
  | missed
  /-- Control cannot get to the line. -/
  | dead
  /-- There is nothing on the line that could run. -/
  | insignificant
  deriving Repr, DecidableEq

namespace CoverageClass

/-- The word for a class in reports. -/
def word : CoverageClass → String
  | .full => "full"
  | .mixed => "some"
  | .missed => "none"
  | .dead => "dead"
  | .insignificant => ""

/-- The word, or a dash for the class that has none. -/
def label (c : CoverageClass) : String := if c = .insignificant then "-" else c.word

def all : List CoverageClass := [.full, .mixed, .missed, .dead, .insignificant]

def ofWord? (w : String) : Option CoverageClass := all.find? (·.word = w)

theorem ofWord?_word (c : CoverageClass) : ofWord? c.word = some c := by
  cases c <;> decide

end CoverageClass

/-- How many lines are in each class but the last. Stored tallies are read from reports too, so they
may be any numbers. -/
structure Tally where
  full : Int := 0
  mixed : Int := 0
  missed : Int := 0
  dead : Int := 0
  deriving Repr, DecidableEq

namespace Tally

def ofClasses (classes : List CoverageClass) : Tally :=
  { full := classes.count .full
    mixed := classes.count .mixed
    missed := classes.count .missed
    dead := classes.count .dead }

def toList (t : Tally) : List Int := [t.full, t.mixed, t.missed, t.dead]

/-- Lines that could have run. -/
def executable (t : Tally) : Int := t.full + t.mixed + t.missed

end Tally

end BytecodeCoverage
