-- SUMMARY: Writing JSON, on one line or indented.
import BytecodeCoverage.Decimal.Hex
import BytecodeCoverage.Decimal.Shortest
import BytecodeCoverage.Json.Value
import BytecodeCoverage.Text.Scan

/-!
# Writing JSON

Strings are written in ASCII: every other character is escaped, one beyond the first plane as a
surrogate pair. The indented form puts each item and each field on a line of its own.
-/

namespace BytecodeCoverage.Json

/-- The escape of one sixteen-bit unit. -/
def escapeUnit (n : Nat) : List Char := '\\' :: 'u' :: hexDigits 4 n

def escapeChar (c : Char) : List Char :=
  if c = '"' then ['\\', '"']
  else if c = '\\' then ['\\', '\\']
  else if c = '\n' then ['\\', 'n']
  else if c = '\r' then ['\\', 'r']
  else if c = '\t' then ['\\', 't']
  else if c = '\x08' then ['\\', 'b']
  else if c = '\x0C' then ['\\', 'f']
  else if 0x20 ≤ c.toNat ∧ c.toNat < 0x7F then [c]
  else if c.toNat < 0x10000 then escapeUnit c.toNat
  else
    let n := c.toNat - 0x10000
    escapeUnit (0xD800 + n / 0x400) ++ escapeUnit (0xDC00 + n % 0x400)

def writeString (s : String) : String :=
  String.ofList ('"' :: (s.toList.flatMap escapeChar ++ ['"']))

def realText (x : Binary64) : String :=
  match x with
  | .nan => "NaN"
  | .infinity negative => if negative then "-Infinity" else "Infinity"
  | x => x.shortest

/-- The line break of an indented form, one step of two spaces per level, or no break at all. -/
def lineBreak (level : Option Nat) : String :=
  match level with
  | none => ""
  | some n => "\n" ++ String.ofList (List.replicate (2 * n) ' ')

def itemSeparator (level : Option Nat) : String := "," ++ lineBreak level

mutual

/-- The text of a value, on one line for the level `none`. -/
def writeAt (level : Option Nat) : Json → String
  | .null => "null"
  | .bool b => if b then "true" else "false"
  | .int n => toString n
  | .real x => realText x
  | .str s => writeString s
  | .arr [] => "[]"
  | .arr items =>
    let inner := level.map (· + 1)
    "[" ++ lineBreak inner ++ Text.joinWith (itemSeparator inner) (writeItems inner items) ++
      lineBreak level ++ "]"
  | .obj [] => "\x7b\x7d"
  | .obj fields =>
    let inner := level.map (· + 1)
    "\x7b" ++ lineBreak inner ++ Text.joinWith (itemSeparator inner) (writeFields inner fields) ++
      lineBreak level ++ "\x7d"

def writeItems (level : Option Nat) : List Json → List String
  | [] => []
  | item :: rest => writeAt level item :: writeItems level rest

def writeFields (level : Option Nat) : List (String × Json) → List String
  | [] => []
  | (key, value) :: rest =>
    (writeString key ++ (if level.isSome then ": " else ":") ++ writeAt level value) ::
      writeFields level rest

end

/-- On one line. -/
def compact (j : Json) : String := writeAt none j

/-- Indented. -/
def pretty (j : Json) : String := writeAt (some 0) j

end BytecodeCoverage.Json
