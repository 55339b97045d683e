-- SUMMARY: Log messages, their levels and where they come from.

/-!
# Log messages

A message is shown if its level is at least the threshold. A threshold is given by the name of a
level in any case; a name that is none means `INFO`, unless it is one of the two names for how
messages are laid out.
-/

namespace BytecodeCoverage

inductive LogLevel where
  | debug
  | info
  | error
  deriving Repr, DecidableEq

namespace LogLevel

def severity : LogLevel → Nat
  | .debug => 10
  | .info => 20
  | .error => 40

def name : LogLevel → String
  | .debug => "DEBUG"
  | .info => "INFO"
  | .error => "ERROR"

end LogLevel

/-- The part of the program that a message comes from. -/
inductive LogSource where
  | records
  | scripts
  | search
  | engine
  | events
  | shell
  | command
  deriving Repr, DecidableEq

def LogSource.name : LogSource → String
  | .records => "tracecov.tokenizer"
  | .scripts => "tracecov.script"
  | .search => "tracecov.reachability"
  | .engine => "tracecov.engine"
  | .events => "tracecov.events"
  | .shell => "tracecov.repl"
  | .command => "tracecov.cli"

structure LogRecord where
  level : LogLevel
  source : LogSource
  message : String
  deriving Repr, DecidableEq

def LogRecord.text (r : LogRecord) : String :=
  r.level.name ++ " " ++ r.source.name ++ ": " ++ r.message

-- ---------------------------------------------------------------------------
-- Thresholds
-- ---------------------------------------------------------------------------

def thresholdNames : List (String × Nat) :=
  [("CRITICAL", 50), ("FATAL", 50), ("ERROR", 40), ("WARNING", 30), ("WARN", 30), ("INFO", 20),
   ("DEBUG", 10), ("NOTSET", 0)]

/-- Why there is no threshold. -/
inductive LevelFault where
  | noName
  /-- The name is the one of the format that messages have if no other is asked for. -/
  | plainFormat
  /-- The name is the one of the table of the styles that a format may have. -/
  | styleTable
  deriving Repr, DecidableEq

def LevelFault.message : LevelFault → String
  | .noName => "no level is named"
  | .plainFormat => "Unknown level: '%(levelname)s:%(name)s:%(message)s'"
  | .styleTable => "a table of styles is no level"

/-- The capitals of a letter that the names of levels have. The dotless i and the long s have the
capitals of the plain letters, and a ligature has those of its two. -/
def levelCapitals (c : Char) : List Char :=
  if c = '\u0131' then ['I']
  else if c = '\u017F' then ['S']
  else if c = '\uFB05' ∨ c = '\uFB06' then ['S', 'T']
  else [c.toUpper]

/-- The threshold that a name stands for. -/
def thresholdOf (name : String) : Except LevelFault Nat :=
  let capitals := String.ofList (name.toList.flatMap levelCapitals)
  if capitals = "BASIC_FORMAT" then .error .plainFormat
  else if capitals = "_STYLES" then .error .styleTable
  else .ok ((thresholdNames.lookup capitals).getD LogLevel.info.severity)

def LogRecord.isShown (threshold : Nat) (r : LogRecord) : Bool := threshold ≤ r.level.severity

end BytecodeCoverage
