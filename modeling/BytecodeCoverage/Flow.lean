-- SUMMARY: How control leaves an instruction, read from the instruction's text.
import BytecodeCoverage.Decimal.Numeral
import BytecodeCoverage.Text.Blank
import BytecodeCoverage.Text.Scan
import BytecodeCoverage.Text.Word

/-!
# Control flow of an instruction

The first word of an instruction's text is its mnemonic, and that alone decides how control
leaves it. A branch names the address of its target as the first operand. A switch names
offsets that are relative to its own address: the default in its first line, and one per case
at the end of each continuation line.
-/

namespace BytecodeCoverage

open Text

inductive FlowKind where
  /-- Control goes to the next instruction. -/
  | linear
  /-- Control leaves the script. -/
  | terminator
  /-- Control goes to the target. -/
  | unconditional
  /-- Control goes to the next instruction or to the target. -/
  | conditional
  /-- Control goes to one of the targets. -/
  | switch
  deriving Repr, DecidableEq

/-- The first run of word characters. -/
def mnemonic (text : String) : String :=
  String.ofList ((text.toList.dropWhile (!isWordChar ·)).takeWhile isWordChar)

/-- Mnemonics that leave the script. A `gosub` counts as conditional, so the return from its
subroutine leaves too. -/
def terminators : List String := ["stop", "return", "throw", "retrval", "retsub"]

def unconditionals : List String := ["goto", "gotox", "default", "defaultx", "filter"]

/-- Mnemonics that may go on to the next instruction. The one after a `gosub` runs once its
subroutine returns, and a `try` names the offset of its handler where there is one. -/
def conditionals : List String :=
  ["ifeq", "ifeqx", "ifne", "ifnex", "or", "orx", "and", "andx", "gosub", "gosubx", "case",
   "casex", "ifcantcalltop", "endfilter", "try"]

def switches : List String := ["tableswitch", "lookupswitch", "tableswitchx", "lookupswitchx"]

def FlowKind.ofMnemonic (m : String) : FlowKind :=
  if m ∈ terminators then .terminator
  else if m ∈ unconditionals then .unconditional
  else if m ∈ conditionals then .conditional
  else if m ∈ switches then .switch
  else .linear

def flowKind (text : String) : FlowKind := .ofMnemonic (mnemonic text)

/-- The digits of a branch's target: the first operand, if that starts with a digit. -/
def branchDigits? (text : List Char) : Option (List Char) :=
  if text.takeWhile isWordChar = [] then none
  else
    let rest := text.dropWhile isWordChar
    if rest.takeWhile isBlank = [] then none
    else
      let digits := (rest.dropWhile isBlank).takeWhile isDigit
      if digits = [] then none else some digits

/-- The address that a branch goes to, `none` if its text names none. -/
def branchTarget (text : String) : Except Fault (Option Nat) :=
  match branchDigits? text.toList with
  | none => .ok none
  | some digits => (Numeral.read digits).map some

/-- The digits of a number that may be negative: the sign, then the digits. -/
structure SignedDigits where
  negative : Bool
  digits : List Char
  deriving Repr, DecidableEq

def SignedDigits.read (s : SignedDigits) : Except Fault Int :=
  Numeral.readSigned s.negative s.digits

/-- A signed number at the start of the text. -/
def signedDigits? (cs : List Char) : Option SignedDigits :=
  let (negative, rest) := match cs with
    | '-' :: rest => (true, rest)
    | _ => (false, cs)
  if rest.takeWhile isDigit = [] then none else some ⟨negative, rest.takeWhile isDigit⟩

/-- The default offset of a switch: the first number right behind the word `ffset` and a space,
which ends the field's name whatever it is. -/
def defaultOffset? : List Char → Option SignedDigits
  | [] => none
  | c :: cs =>
    match (after? "ffset ".toList (c :: cs)).bind signedDigits? with
    | some found => some found
    | none => defaultOffset? cs

/-- The offset of a case: the number at the end of the line, if a colon and a space stand
before it. -/
def caseOffset? (line : List Char) : Option SignedDigits :=
  let back := (dropFinalNewline line).reverse
  let digits := (back.takeWhile isDigit).reverse
  let (negative, rest) := match back.dropWhile isDigit with
    | '-' :: rest => (true, rest)
    | rest => (false, rest)
  if digits = [] then none else (after? [' ', ':'] rest).map fun _ => ⟨negative, digits⟩

/-- The offsets that the text of a switch names, not yet converted: the default first. -/
def switchDigits (text : List Char) : List SignedDigits :=
  let (first, cases) := pieces '\t' text
  (defaultOffset? first).toList ++ cases.filterMap caseOffset?

/-- The offsets of a switch from its own address: the default first, then one per case. -/
def switchOffsets (text : String) : Except Fault (List Int) :=
  (switchDigits text.toList).mapM SignedDigits.read

end BytecodeCoverage
