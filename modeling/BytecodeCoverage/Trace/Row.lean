-- SUMMARY: Reading one line of a trace.
import BytecodeCoverage.Decimal.Numeral
import BytecodeCoverage.Text.Blank
import BytecodeCoverage.Text.Scan
import BytecodeCoverage.Trace.Dialect

/-!
# Rows

A row is a trace line that has been read. The grammar has four marked kinds of line:

* a header `--- SCRIPT file:line ---`, where the last colon ends the file name;
* an end marker, which starts with `--- END SCRIPT`;
* the entry marker of the dialect;
* an instruction `address:n/n/n/...  x  line  text` with at least three counts.

A line that starts with a tab continues the instruction before it, and all others are noise.
Recognising a line does not convert its numbers. That is a step of its own, since a number may
be too long for it.
-/

namespace BytecodeCoverage

open Text

/-- The file name of a header line and the digits of its start line. -/
def header? (line : List Char) : Option (List Char × List Char) := do
  let rest ← after? "--- SCRIPT ".toList (dropFinalNewline line)
  let back ← after? "--- ".toList rest.reverse
  let digits := back.takeWhile isDigit
  match back.dropWhile isDigit with
  | ':' :: file =>
    if digits ≠ [] ∧ '\n' ∉ file then some (file.reverse, digits.reverse) else none
  | _ => none

def isHeader (line : String) : Bool := (header? line.toList).isSome

def isEndMarker (line : String) : Bool := (after? "--- END SCRIPT".toList line.toList).isSome

/-- A run of at least one digit, and what follows it. -/
def digits? (cs : List Char) : Option (List Char × List Char) :=
  if cs.takeWhile isDigit = [] then none else some (cs.takeWhile isDigit, cs.dropWhile isDigit)

/-- What follows a run of at least one blank. -/
def blanks? (cs : List Char) : Option (List Char) :=
  if cs.takeWhile isBlank = [] then none else some (cs.dropWhile isBlank)

/-- Three or more runs of digits with a slash between neighbours, and what follows them. -/
def counts? (cs : List Char) : Option (List (List Char) × List Char) :=
  let isPart := fun c => isDigit c || c = '/'
  let (first, more) := pieces '/' (cs.takeWhile isPart)
  if 2 ≤ more.length ∧ (first :: more).all (· ≠ []) then
    some (first :: more, cs.dropWhile isPart)
  else none

/-- The rest of a line: all of it, or up to one newline that ends it. -/
def lineText? (cs : List Char) : Option (List Char) :=
  let rest := cs.dropWhile (· ≠ '\n')
  if rest = [] ∨ rest = ['\n'] then some (cs.takeWhile (· ≠ '\n')) else none

/-- The fields of an instruction line, not yet converted. -/
structure DataFields where
  address : List Char
  counts : List (List Char)
  sourceLine : List Char
  text : List Char
  deriving Repr, DecidableEq

def dataFields? (line : List Char) : Option DataFields := do
  let (address, rest) ← digits? line
  let (counts, rest) ← counts? (← after? [':'] rest)
  let (sourceLine, rest) ← digits? (← blanks? (← after? ['x'] (← blanks? rest)))
  let text ← lineText? (← blanks? rest)
  some { address, counts, sourceLine, text }

/-- What a line says. -/
inductive Row where
  | header (file : String) (startLine : Nat)
  | finish
  | entry
  | data (address sourceLine count : Nat) (text : String)
  | continuation (text : String)
  | noise
  deriving Repr, DecidableEq

/-- Only the first three counts of an instruction are execution counts. -/
def executionCount (counts : List (List Char)) : Except Fault Nat :=
  (counts.take 3).foldlM (fun sum digits => (Numeral.read digits).map (sum + ·)) 0

/-- Convert the fields of an instruction line, the source line first. -/
def DataFields.toRow (d : Dialect) (fields : DataFields) : Except Fault Row := do
  let sourceLine ← Numeral.read fields.sourceLine
  let address ← Numeral.read fields.address
  let count ← executionCount fields.counts
  return .data address sourceLine count (d.instructionText (String.ofList fields.text))

/-- Read a line. The kinds are tried in the order of the grammar above. -/
def Row.read (d : Dialect) (line : String) : Except Fault Row :=
  match header? line.toList with
  | some (file, digits) => (Numeral.read digits).map (.header (String.ofList file) ·)
  | none =>
    if isEndMarker line then .ok .finish
    else if line = d.entryMarker then .ok .entry
    else match dataFields? line.toList with
      | some fields => fields.toRow d
      | none => if line.toList.head? = some '\t' then .ok (.continuation line) else .ok .noise

end BytecodeCoverage
