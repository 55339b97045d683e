-- SUMMARY: What can be wrong with settings.
import BytecodeCoverage.Fault
import BytecodeCoverage.Json.Reader
import BytecodeCoverage.Text.Lines
import BytecodeCoverage.Text.Quoted
import BytecodeCoverage.Text.Utf8

/-!
# Faults of settings
-/

namespace BytecodeCoverage

inductive SettingsFault where
  | unknownKeys (keys : List String)
  | notAList (key : String)
  | notAString (key : String)
  | notAnObject
  /-- An offset is text that is no number. -/
  | badLiteral (text : String)
  | overlongDigits (digits : Nat)
  /-- An offset is infinite. -/
  | infiniteOffset
  /-- An offset is the number that is none. -/
  | undefinedOffset
  /-- An offset is of a kind that cannot be a number. -/
  | unusableOffset
  /-- A part of the settings is of a kind that does not have what is asked of it. -/
  | unusablePart
  | badText (fault : Text.Utf8.Fault)
  /-- A file has arrays and objects too deep within each other. -/
  | tooDeep (container : Json.Container)
  /-- A file has a string with half of a pair of surrogates. -/
  | loneSurrogate
  | badJson (text : List Char) (mistake : Json.Mistake) (left : Nat)
  deriving Repr, DecidableEq

namespace SettingsFault

def ofJson (text : List Char) : Json.Fault → SettingsFault
  | .malformed mistake left => .badJson text mistake left
  | .overlongDigits digits => .overlongDigits digits
  | .tooDeep container => .tooDeep container
  | .loneSurrogate => .loneSurrogate

/-- A quoted text is cut after so many characters. -/
def quoteLimit : Nat := 200

/-- The wording of a fault. Two kinds have none that a report shows. -/
def message : SettingsFault → String
  | .unknownKeys keys => "unknown trace config keys: " ++ Text.joinWith ", " keys
  | .notAList key => key ++ " must be a list of strings"
  | .notAString key => key ++ " must be a string"
  | .notAnObject => "trace config file must contain a JSON object"
  | .badLiteral text =>
    "invalid literal for int() with base 10: " ++
      String.ofList ((Text.quote text).toList.take quoteLimit)
  | .overlongDigits digits => (Fault.overlongDigits digits).message
  | .infiniteOffset => "cannot convert float infinity to integer"
  | .undefinedOffset => "cannot convert float NaN to integer"
  | .unusableOffset => ""
  | .unusablePart => ""
  | .badText fault => fault.message
  | .tooDeep container => (Json.Fault.tooDeep container).message []
  | .loneSurrogate => Json.Fault.loneSurrogate.message []
  | .badJson text mistake left => (Json.Fault.malformed mistake left).message text

/-- Faults in the values of settings, which a command reports. The others end it. -/
def isReported : SettingsFault → Bool
  | .infiniteOffset => false
  | .unusableOffset => false
  | .unusablePart => false
  | .tooDeep _ => false
  | .loneSurrogate => false
  | _ => true

end SettingsFault

/-- The JSON value in the bytes of a settings file. -/
def readSettings (bytes : List UInt8) (depth : Nat := Json.usualDepth) :
    Except SettingsFault Json :=
  match Text.Utf8.decode bytes with
  | .error fault => .error (.badText fault)
  | .ok text =>
    let text := Text.unifyNewlines text
    (Json.parse text depth).mapError (.ofJson text)

end BytecodeCoverage
