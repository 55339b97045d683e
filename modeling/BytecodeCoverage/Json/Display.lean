-- SUMMARY: JSON values as the words of a settings list.
import BytecodeCoverage.Decimal.Shortest
import BytecodeCoverage.Json.Value
import BytecodeCoverage.Text.Quoted
import BytecodeCoverage.Text.Scan

/-!
# Displaying JSON values

A settings list may hold values that are no strings. They are taken as the text that displays
them. A string is itself, but inside of another value it is quoted.
-/

namespace BytecodeCoverage.Json

mutual

/-- The text of a value inside of another. -/
def displayInner : Json → String
  | .null => "None"
  | .bool b => if b then "True" else "False"
  | .int n => toString n
  | .real x => x.shortest
  | .str s => Text.quote s
  | .arr items => "[" ++ Text.joinWith ", " (displayItems items) ++ "]"
  | .obj fields => "\x7b" ++ Text.joinWith ", " (displayFields fields) ++ "\x7d"

def displayItems : List Json → List String
  | [] => []
  | item :: rest => displayInner item :: displayItems rest

def displayFields : List (String × Json) → List String
  | [] => []
  | (key, value) :: rest =>
    (Text.quote key ++ ": " ++ displayInner value) :: displayFields rest

end

/-- The text of a value. -/
def display : Json → String
  | .str s => s
  | j => displayInner j

end BytecodeCoverage.Json
