-- SUMMARY: Reading JSON text, with the place and the kind of the first mistake in it.
import BytecodeCoverage.Decimal.Hex
import BytecodeCoverage.Decimal.Numeral
import BytecodeCoverage.Json.Value
import BytecodeCoverage.Text.Scan

/-!
# Reading JSON

The reader takes JSON as its standard has it, and also the words `NaN`, `Infinity` and
`-Infinity`. Control characters may not stand in strings. A repeated key keeps its first place and
its last value. Two escaped surrogates that follow each other are one character; one that is left
alone is none, and then the strings of the value cannot be told. A text is read to its end before
its strings are put together.

Readers give what follows the part that they read. A mistake is placed by how many characters
were left where it was found. How many values may stand within each other is up to the machine.
-/

namespace BytecodeCoverage.Json

/-- What is wrong with a text that is no JSON. -/
inductive Mistake where
  | noValue
  | noKey
  | noColon
  | noComma
  | openString
  | controlCharacter
  | badEscape
  | badUnitEscape
  | extraText
  | byteOrderMark
  deriving Repr, DecidableEq

def Mistake.message : Mistake → String
  | .noValue => "Expecting value"
  | .noKey => "Expecting property name enclosed in double quotes"
  | .noColon => "Expecting ':' delimiter"
  | .noComma => "Expecting ',' delimiter"
  | .openString => "Unterminated string starting at"
  | .controlCharacter => "Invalid control character at"
  | .badEscape => "Invalid \\escape"
  | .badUnitEscape => "Invalid \\uXXXX escape"
  | .extraText => "Extra data"
  | .byteOrderMark => "Unexpected UTF-8 BOM (decode using utf-8-sig)"

/-- What holds other values. -/
inductive Container where
  | array
  | object
  deriving Repr, DecidableEq

def Container.word : Container → String
  | .array => "array"
  | .object => "object"

/-- Why a text was not read: a mistake with so many characters left, a number of too many digits, a
value too deep within others, or a string with half of a pair of surrogates. -/
inductive Fault where
  | malformed (mistake : Mistake) (left : Nat)
  | overlongDigits (digits : Nat)
  | tooDeep (container : Container)
  | loneSurrogate
  deriving Repr, DecidableEq

def isSpace (c : Char) : Bool := c = ' ' || c = '\t' || c = '\n' || c = '\r'

def skipSpace (cs : List Char) : List Char := cs.dropWhile isSpace

def complain (mistake : Mistake) (cs : List Char) : Except Fault α :=
  .error (.malformed mistake cs.length)

-- ---------------------------------------------------------------------------
-- Strings
-- ---------------------------------------------------------------------------

/-- A character of a string, or an escaped sixteen-bit unit. -/
inductive StringPart where
  | char (c : Char)
  | unit (n : Nat)
  deriving Repr, DecidableEq

def simpleEscape? : Char → Option Char
  | '"' => some '"'
  | '\\' => some '\\'
  | '/' => some '/'
  | 'b' => some '\x08'
  | 'f' => some '\x0C'
  | 'n' => some '\n'
  | 'r' => some '\r'
  | 't' => some '\t'
  | _ => none

def hexUnit? (a b c d : Char) : Option Nat := do
  return ((← hexValue? a) * 16 + (← hexValue? b)) * 256 + (← hexValue? c) * 16 + (← hexValue? d)

/-- The parts of a string, latest first, up to its closing quote. The string was opened in front of
the characters `opened`. -/
def stringParts (opened : List Char) (done : List StringPart) :
    List Char → Except Fault (List StringPart × List Char)
  | [] => .error (.malformed .openString (opened.length + 1))
  | ['\\'] => .error (.malformed .openString (opened.length + 1))
  | '"' :: rest => .ok (done, rest)
  | '\\' :: 'u' :: a :: b :: c :: d :: e :: rest =>
    match hexUnit? a b c d with
    | some n => stringParts opened (.unit n :: done) (e :: rest)
    | none => .error (.malformed .badUnitEscape (rest.length + 6))
  | '\\' :: 'u' :: rest => .error (.malformed .badUnitEscape (rest.length + 1))
  | '\\' :: c :: rest =>
    match simpleEscape? c with
    | some c => stringParts opened (.char c :: done) rest
    | none => .error (.malformed .badEscape (rest.length + 2))
  | c :: rest =>
    if c.toNat < 0x20 then .error (.malformed .controlCharacter (rest.length + 1))
    else stringParts opened (.char c :: done) rest

def isHighSurrogate (n : Nat) : Bool := 0xD800 ≤ n && n < 0xDC00

def isLowSurrogate (n : Nat) : Bool := 0xDC00 ≤ n && n < 0xE000

/-- The character of a unit that is not half of a pair. -/
def unitChar? (n : Nat) : Option Char :=
  if isHighSurrogate n || isLowSurrogate n then none else some (Char.ofNat n)

def joinSurrogates (high low : Nat) : Char :=
  Char.ofNat (0x10000 + (high - 0xD800) * 0x400 + (low - 0xDC00))

/-- The characters of the parts, the pairs of surrogates joined, if no surrogate is left alone. -/
def joinParts? : List StringPart → Option (List Char)
  | [] => some []
  | .char c :: rest => (joinParts? rest).map (c :: ·)
  | .unit high :: .unit low :: rest =>
    if isHighSurrogate high && isLowSurrogate low then
      (joinParts? rest).map (joinSurrogates high low :: ·)
    else do return (← unitChar? high) :: (← joinParts? (.unit low :: rest))
  | .unit n :: rest => do return (← unitChar? n) :: (← joinParts? rest)

/-- The string of some parts. -/
def stringOf (parts : List StringPart) : Except Fault String :=
  match joinParts? parts with
  | some cs => .ok (String.ofList cs)
  | none => .error .loneSurrogate

/-- The parts of a string, read from behind its opening quote. -/
def readString (cs : List Char) : Except Fault (List StringPart × List Char) :=
  (stringParts cs [] cs).map fun (parts, rest) => (parts.reverse, rest)

-- ---------------------------------------------------------------------------
-- Numbers
-- ---------------------------------------------------------------------------

def isAsciiDigit (c : Char) : Bool := '0' ≤ c && c ≤ '9'

/-- The digits of the whole part: one zero, or a run that starts with another digit. -/
def wholeDigits? (cs : List Char) : Option (List Char × List Char) :=
  match cs with
  | '0' :: rest => some (['0'], rest)
  | _ =>
    if cs.takeWhile isAsciiDigit = [] then none
    else some (cs.takeWhile isAsciiDigit, cs.dropWhile isAsciiDigit)

/-- The digits behind a point, if there are any. -/
def fractionDigits (cs : List Char) : List Char × List Char :=
  match cs with
  | '.' :: rest =>
    if rest.takeWhile isAsciiDigit = [] then ([], cs)
    else (rest.takeWhile isAsciiDigit, rest.dropWhile isAsciiDigit)
  | _ => ([], cs)

/-- The power of ten that an exponent names, if there is one. -/
def exponent? (cs : List Char) : Option (Int × List Char) :=
  match cs with
  | e :: rest =>
    if e = 'e' ∨ e = 'E' then
      let (negative, rest) := match rest with
        | '-' :: rest => (true, rest)
        | '+' :: rest => (false, rest)
        | rest => (false, rest)
      let digits := rest.takeWhile isAsciiDigit
      if digits = [] then none
      else
        let n : Nat := Text.digitsValue digits
        some (if negative then -n else n, rest.dropWhile isAsciiDigit)
    else none
  | [] => none

/-- A number without its sign. -/
def readUnsigned? (negative : Bool) (cs : List Char) :
    Option (Except Fault (Json × List Char)) := do
  let (whole, rest) ← wholeDigits? cs
  let (fraction, rest) := fractionDigits rest
  let exponent := exponent? rest
  if fraction = [] ∧ exponent = none then
    return match Numeral.readSigned negative whole with
      | .ok n => .ok (.int n, rest)
      | .error _ => .error (.overlongDigits whole.length)
  else
    let (power, rest) := exponent.getD (0, rest)
    let digits := (whole ++ fraction).dropWhile (· = '0')
    let x := Binary64.ofDecimal negative (Text.digitsValue digits) digits.length
      (power - fraction.length)
    return .ok (.real x, rest)

-- ---------------------------------------------------------------------------
-- Values
-- ---------------------------------------------------------------------------

/-- The words that are values, with their values. -/
def words : List (String × Json) :=
  [("null", .null), ("true", .bool true), ("false", .bool false), ("NaN", .real .nan),
   ("Infinity", .real (.infinity false)), ("-Infinity", .real (.infinity true))]

/-- A value as it is written, with the parts of its strings. -/
inductive Written where
  /-- A word or a number. -/
  | scalar (value : Json)
  | str (parts : List StringPart)
  | arr (items : List Written)
  | obj (fields : List (List StringPart × Written))

mutual

/-- The value that is written. -/
def Written.value : Written → Except Fault Json
  | .scalar value => .ok value
  | .str parts => (stringOf parts).map .str
  | .arr items => (itemValues items).map .arr
  | .obj fields => (fieldValues fields).map fun fields => .obj (uniteFields fields)

def itemValues : List Written → Except Fault (List Json)
  | [] => .ok []
  | item :: rest => do return (← item.value) :: (← itemValues rest)

def fieldValues : List (List StringPart × Written) → Except Fault (List (String × Json))
  | [] => .ok []
  | (key, value) :: rest => do
    return (← stringOf key, ← value.value) :: (← fieldValues rest)

end

/-- A word or a number. -/
def readScalar (cs : List Char) : Except Fault (Json × List Char) :=
  match words.findSome? fun (word, value) => (Text.after? word.toList cs).map (value, ·) with
  | some read => .ok read
  | none =>
    let number := match cs with
      | '-' :: rest => readUnsigned? true rest
      | _ => readUnsigned? false cs
    number.getD (complain .noValue cs)

mutual

/-- A value that starts with the first character, with room for so many arrays and objects within
each other. The fuel bounds the depth of the recursion. A character opens or continues at most one
array or object, which takes two steps down, so twice the length of a text is enough. -/
def readValue (fuel room : Nat) (cs : List Char) : Except Fault (Written × List Char) :=
  match fuel with
  | 0 => complain .noValue cs
  | fuel + 1 =>
    match cs, room with
    | '"' :: rest, _ => (readString rest).map fun (parts, rest) => (.str parts, rest)
    | '[' :: _, 0 => .error (.tooDeep .array)
    | '[' :: rest, room + 1 =>
      match skipSpace rest with
      | ']' :: rest => .ok (.arr [], rest)
      | rest => (readItems fuel room rest).map fun (items, rest) => (.arr items, rest)
    | '\x7b' :: _, 0 => .error (.tooDeep .object)
    | '\x7b' :: rest, room + 1 =>
      match skipSpace rest with
      | '\x7d' :: rest => .ok (.obj [], rest)
      | rest => (readFields fuel room rest).map fun (fields, rest) => (.obj fields, rest)
    | cs, _ => (readScalar cs).map fun (value, rest) => (.scalar value, rest)

/-- The items of an array that has some, up to its end. -/
def readItems (fuel room : Nat) (cs : List Char) : Except Fault (List Written × List Char) :=
  match fuel with
  | 0 => complain .noValue cs
  | fuel + 1 => do
    let (item, rest) ← readValue fuel room cs
    match skipSpace rest with
    | ']' :: rest => return ([item], rest)
    | ',' :: rest =>
      let (items, rest) ← readItems fuel room (skipSpace rest)
      return (item :: items, rest)
    | rest => complain .noComma rest

/-- The fields of an object that has some, up to its end. -/
def readFields (fuel room : Nat) (cs : List Char) :
    Except Fault (List (List StringPart × Written) × List Char) :=
  match fuel with
  | 0 => complain .noKey cs
  | fuel + 1 =>
    match cs with
    | '"' :: rest => do
      let (key, rest) ← readString rest
      match skipSpace rest with
      | ':' :: rest =>
        let (value, rest) ← readValue fuel room (skipSpace rest)
        match skipSpace rest with
        | '\x7d' :: rest => return ([(key, value)], rest)
        | ',' :: rest =>
          let (fields, rest) ← readFields fuel room (skipSpace rest)
          return ((key, value) :: fields, rest)
        | rest => complain .noComma rest
      | rest => complain .noColon rest
    | cs => complain .noKey cs

end

/-- How many arrays and objects may stand within each other, where nothing else is said. -/
def usualDepth : Nat := 990

/-- A whole text as it is written, with room for so many arrays and objects within each other. -/
def readText (text : List Char) (depth : Nat) : Except Fault Written :=
  if text.head? = some '\uFEFF' then complain .byteOrderMark text
  else do
    let (value, rest) ← readValue (2 * text.length + 2) depth (skipSpace text)
    match skipSpace rest with
    | [] => return value
    | rest => complain .extraText rest

/-- The value of a whole text. -/
def parse (text : List Char) (depth : Nat := usualDepth) : Except Fault Json := do
  (← readText text depth).value

/-- The wording of a fault in a text, with the line, the column and the place in it. -/
def Fault.message (text : List Char) : Fault → String
  | .overlongDigits digits => (BytecodeCoverage.Fault.overlongDigits digits).message
  | .tooDeep container =>
    "maximum recursion depth exceeded while decoding a JSON " ++ container.word ++
      " from a unicode string"
  | .loneSurrogate => "surrogates not allowed"
  | .malformed mistake left =>
    let before := text.take (text.length - left)
    let line := before.count '\n' + 1
    let column := (before.reverse.takeWhile (· ≠ '\n')).length + 1
    mistake.message ++ ": line " ++ toString line ++ " column " ++ toString column ++ " (char " ++
      toString before.length ++ ")"

end BytecodeCoverage.Json
