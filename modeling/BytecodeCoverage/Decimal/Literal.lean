-- SUMMARY: Whole numbers as people write them, with a sign, blanks around and low lines inside.
import BytecodeCoverage.Decimal.Numeral
import BytecodeCoverage.Text.Blank

/-!
# Number literals

A literal may have blanks around it, one sign right before the digits, and single low lines between
digits. The information separators do not count as blanks here.
-/

namespace BytecodeCoverage

/-- Why a text is no literal that can be read. -/
inductive LiteralFault where
  | malformed
  | overlongDigits (digits : Nat)
  deriving Repr, DecidableEq

namespace Literal

def isPadding (c : Char) : Bool := Text.isBlank c && !(0x1C ≤ c.toNat && c.toNat ≤ 0x1F)

/-- Whether each low line stands between two digits. -/
def separatesDigits : List Char → Bool
  | [] => true
  | ['_'] => false
  | '_' :: '_' :: _ => false
  | _ :: rest => separatesDigits rest

def read (text : String) : Except LiteralFault Int :=
  let cs := text.toList.dropWhile isPadding
  let (negative, cs) := match cs with
    | '-' :: rest => (true, rest)
    | '+' :: rest => (false, rest)
    | cs => (false, cs)
  let isPart := fun c => Text.isDigit c || c = '_'
  let run := cs.takeWhile isPart
  let digits := run.filter Text.isDigit
  if digits = [] ∨ run.head? = some '_' ∨ !separatesDigits run then .error .malformed
  else match Numeral.readSigned negative digits with
    | .error _ => .error (.overlongDigits digits.length)
    | .ok n => if (cs.dropWhile isPart).all isPadding then .ok n else .error .malformed

end Literal

end BytecodeCoverage
