-- SUMMARY: Source maps: relocations by file name prefixes and line offsets.
import BytecodeCoverage.Decimal.Literal
import BytecodeCoverage.Json.Reader
import BytecodeCoverage.Relocation
import BytecodeCoverage.Settings.Fault
import BytecodeCoverage.Text.Scan

/-!
# Source maps

A source map replaces the longest lead of a file name that it knows, and shifts lines by the offset
of the name that this gives, for instance by the lines that a preprocessor put first.

Leads are written as `traced=source`, with colons between them. Parts without an equals sign or
without a traced side are skipped, an empty source stands for the current directory, and of two
parts for one traced lead the last counts.
-/

namespace BytecodeCoverage

structure SourceMap where
  /-- The traced leads of file names with what replaces them. -/
  leads : List (String × String) := []
  /-- How many lines to add, by the file name in the source. -/
  offsets : List (String × Int) := []
  deriving Repr, DecidableEq

namespace SourceMap

/-- The two sides of a part, cut at its first equals sign. -/
def sides? (part : List Char) : Option (String × String) :=
  match part.dropWhile (· ≠ '=') with
  | [] => none
  | _ :: source =>
    let traced := part.takeWhile (· ≠ '=')
    if traced = [] then none
    else some (String.ofList traced, if source = [] then "." else String.ofList source)

/-- The leads that a text writes down. -/
def parseLeads (text : String) : List (String × String) :=
  let (first, more) := Text.pieces ':' text.toList
  Json.uniteFields ((first :: more).filterMap sides?)

/-- The longer of two leads, the first if they are equally long. -/
def longerLead (a b : String × String) : String × String :=
  if a.1.length < b.1.length then b else a

/-- The longest lead of a file name. -/
def longestLead? (leads : List (String × String)) (file : String) : Option (String × String) :=
  match leads.filter fun lead => lead.1.toList.isPrefixOf file.toList with
  | [] => none
  | lead :: more => some (more.foldl longerLead lead)

/-- The name of a traced file in the source. -/
def sourceFile (m : SourceMap) (file : String) : String :=
  match longestLead? m.leads file with
  | none => file
  | some (traced, source) => source ++ String.ofList (file.toList.drop traced.length)

/-- How far the lines of a source file are moved. -/
def offset (m : SourceMap) (file : String) : Int := (m.offsets.lookup file).getD 0

def relocate (m : SourceMap) : Relocation := fun file line =>
  (m.sourceFile file, line + m.offset (m.sourceFile file))

-- ---------------------------------------------------------------------------
-- From settings
-- ---------------------------------------------------------------------------

/-- An offset from a setting: numbers lose their fraction, and text is read as a literal. -/
def readOffset : Json → Except SettingsFault Int
  | .int n => .ok n
  | .bool b => .ok (if b then 1 else 0)
  | .real (.infinity _) => .error .infiniteOffset
  | .real .nan => .error .undefinedOffset
  | .real x => .ok (x.truncate?.getD 0)
  | .str s =>
    match Literal.read s with
    | .ok n => .ok n
    | .error .malformed => .error (.badLiteral s)
    | .error (.overlongDigits digits) => .error (.overlongDigits digits)
  | .null => .error .unusableOffset
  | .arr _ => .error .unusableOffset
  | .obj _ => .error .unusableOffset

/-- Offsets by name. Of two for one name the last counts. -/
def readOffsets (offsets : List (String × Json)) : Except SettingsFault (List (String × Int)) :=
  (Json.uniteFields offsets).mapM fun (name, value) => (readOffset value).map (name, ·)

/-- A source map from the text of its leads and the settings of its offsets. -/
def ofSettings (leads : String) (offsets : List (String × Json)) :
    Except SettingsFault SourceMap :=
  (readOffsets offsets).map fun offsets => { leads := parseLeads leads, offsets }

/-- Whether a setting says nothing: a zero, or something empty. -/
def isVoid : Json → Bool
  | .null => true
  | .bool b => !b
  | .int n => n = 0
  | .real (.finite _ m _) => m = 0
  | .real _ => false
  | .str s => s = ""
  | .arr items => items.isEmpty
  | .obj fields => fields.isEmpty

/-- The text of the leads in a settings file. -/
def leadsSetting (setting : Json) : Except SettingsFault String :=
  match setting with
  | .str s => .ok s
  | j => if isVoid j then .ok "" else .error .unusablePart

/-- The offsets in a settings file. -/
def offsetsSetting (setting : Json) : Except SettingsFault (List (String × Json)) :=
  match setting with
  | .obj fields => .ok fields
  | j => if isVoid j then .ok [] else .error .unusablePart

/-- The source map of a settings file. Keys that it does not know are passed over. -/
def ofFile (bytes : List UInt8) (depth : Nat := Json.usualDepth) :
    Except SettingsFault SourceMap := do
  match ← readSettings bytes depth with
  | .obj fields =>
    let offsets := (fields.lookup "line_offsets").getD .null
    let leads := (fields.lookup "prefix_map").getD .null
    -- the leads are looked at first, but offsets of the wrong kind are told only after them
    let leads ← leadsSetting leads
    ofSettings leads (← offsetsSetting offsets)
  | _ => throw .unusablePart

end SourceMap

end BytecodeCoverage
