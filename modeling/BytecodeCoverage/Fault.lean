-- SUMMARY: The ways in which reading a trace or notifying an observer can fail.

/-!
# Faults

Malformed trace text is tolerated. What remains are numbers of too many digits, lines so far down
that there is no room for those before them, jumps to addresses that a script does not have, counts
of two different scripts that are to be added, a parse asked for while one is running, and whatever
an observer raises.
-/

namespace BytecodeCoverage

inductive Fault where
  /-- A run of more digits than a number may be read from. -/
  | overlongDigits (digits : Nat)
  /-- A number with more digits than may be written. -/
  | overlongNumber
  /-- A whole number that no binary64 number comes near. -/
  | tooLargeForReal
  /-- More missing lines before a line than can be counted off. -/
  | gapTooLong
  /-- A line that there is no room for. -/
  | outOfRoom
  /-- An index before the first line. -/
  | noSuchLine
  | unresolvedTarget (script : String) (source target : Int)
  | signatureMismatch (kept other : String)
  | reentrantParse
  | observer (name : String)
  deriving Repr, DecidableEq

def Fault.message : Fault → String
  | .overlongDigits digits =>
    "Exceeds the limit (4300 digits) for integer string conversion: value has " ++
      toString digits ++ " digits; use sys.set_int_max_str_digits() to increase the limit"
  | .overlongNumber =>
    "Exceeds the limit (4300 digits) for integer string conversion; " ++
      "use sys.set_int_max_str_digits() to increase the limit"
  | .tooLargeForReal => "int too large to convert to float"
  | .gapTooLong => "cannot fit 'int' into an index-sized integer"
  | .outOfRoom => ""
  | .noSuchLine => "there is no line that far before the end"
  | .unresolvedTarget script source target =>
    script ++ ": instruction at " ++ toString source ++ " targets unknown address " ++
      toString target
  | .signatureMismatch kept other =>
    "cannot merge counts of " ++ other ++ " into structurally different " ++ kept
  | .reentrantParse => "parse_data called while a parse is in progress"
  | .observer name => name

end BytecodeCoverage
