-- SUMMARY: Dialects from settings.
import BytecodeCoverage.Json.Display
import BytecodeCoverage.Settings.Fault
import BytecodeCoverage.Trace.Dialect

/-!
# Dialect settings

Settings name parts of a dialect and their values. What they do not name keeps its default. Unknown
names are told before bad values, and of bad values the first is told.
-/

namespace BytecodeCoverage

/-- A list of words. Items that are no strings are taken as the text that displays them. -/
def wordList (key : String) : Json → Except SettingsFault (List String)
  | .arr items => .ok (items.map Json.display)
  | _ => .error (.notAList key)

def oneWord (key : String) : Json → Except SettingsFault String
  | .str s => .ok s
  | _ => .error (.notAString key)

namespace Dialect

def settingNames : List String :=
  ["sentinel_headers", "entry_marker", "placeholder_mnemonics", "halt_mnemonic"]

/-- The dialect after one setting. -/
def set (d : Dialect) (key : String) (value : Json) : Except SettingsFault Dialect :=
  if key = "sentinel_headers" then
    (wordList key value).map fun sentinelHeaders => { d with sentinelHeaders }
  else if key = "placeholder_mnemonics" then
    (wordList key value).map fun placeholderMnemonics => { d with placeholderMnemonics }
  else if key = "entry_marker" then
    (oneWord key value).map fun entryMarker => { d with entryMarker }
  else (oneWord key value).map fun haltMnemonic => { d with haltMnemonic }

/-- The dialect of some settings, each key once. -/
def ofSettings (settings : List (String × Json)) : Except SettingsFault Dialect :=
  let unknown := (settings.map (·.1)).filter (· ∉ settingNames)
  if unknown ≠ [] then .error (.unknownKeys (unknown.mergeSort (· ≤ ·)))
  else settings.foldlM (fun d setting => d.set setting.1 setting.2) {}

/-- The dialect of a settings file. -/
def ofFile (bytes : List UInt8) (depth : Nat := Json.usualDepth) :
    Except SettingsFault Dialect := do
  match ← readSettings bytes depth with
  | .obj fields => ofSettings fields
  | _ => throw .notAnObject

end Dialect

end BytecodeCoverage
