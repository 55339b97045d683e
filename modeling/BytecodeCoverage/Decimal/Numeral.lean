-- SUMMARY: Numbers as decimal text, with the limit on how many digits are converted.
import BytecodeCoverage.Fault
import BytecodeCoverage.Text.Digit

/-!
# Numerals

Numbers are unbounded, but text of more than 4300 digits is not converted, in either direction.
Leading zeros count as digits, a sign does not.
-/

namespace BytecodeCoverage.Numeral

def digitLimit : Nat := 4300

/-- The least number that is too long to be written. -/
def tooLong : Nat := Nat.pow 10 digitLimit

/-- The number that a run of digits writes. -/
def read (digits : List Char) : Except Fault Nat :=
  if digits.length ≤ digitLimit then .ok (Text.digitsValue digits)
  else .error (.overlongDigits digits.length)

/-- The same behind an optional minus sign. -/
def readSigned (negative : Bool) (digits : List Char) : Except Fault Int :=
  (read digits).map fun n => if negative then -(n : Int) else n

/-- Whether the number may be written as text. -/
def isWritable (n : Int) : Bool := n.natAbs < tooLong

theorem read_eq_ok {digits : List Char} (h : digits.length ≤ digitLimit) :
    read digits = .ok (Text.digitsValue digits) := by
  simp [read, h]

theorem read_eq_error {digits : List Char} {e : Fault} :
    read digits = .error e ↔ digitLimit < digits.length ∧ e = .overlongDigits digits.length := by
  by_cases h : digits.length ≤ digitLimit
  · rw [read_eq_ok h]
    simp [Nat.not_lt.2 h]
  · simp [read, h, Nat.lt_of_not_le h, eq_comm]

end BytecodeCoverage.Numeral
