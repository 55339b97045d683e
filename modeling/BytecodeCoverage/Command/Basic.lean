-- SUMMARY: The command: read the settings, load the traces in order and report.
import BytecodeCoverage.Command.Options
import BytecodeCoverage.Report.Record
import BytecodeCoverage.Settings.DialectSettings
import BytecodeCoverage.Settings.SourceMap
import BytecodeCoverage.Shell.Basic

/-!
# The command

The command loads traces in order and reports what they cover, as a table, as JSON, or through the
shell. Settings that cannot be read and traces that fail end it with status 1 and a message in the
log, before anything is printed.
-/

namespace BytecodeCoverage

/-- How the command ends. -/
inductive Ending where
  | finished (status : Nat) (output : String)
  /-- The command did not begin. -/
  | refused (fault : OptionFault)
  /-- The command broke off, after some output. -/
  | crashed (crash : Crash) (output : String)
  deriving Repr, DecidableEq

structure Outcome where
  ending : Ending
  /-- The messages that are shown, in their order. -/
  log : List LogRecord := []
  deriving Repr, DecidableEq

/-- What is up to the machine: the room for the lines of a file, and how deep the values in a file
of settings may stand within each other. -/
structure Machine where
  room : Room := .usual
  depth : Nat := Json.usualDepth
  deriving Repr, DecidableEq

namespace Command

-- ---------------------------------------------------------------------------
-- Settings
-- ---------------------------------------------------------------------------

/-- Why the settings cannot be read. -/
inductive SetupFault where
  | file (path : Path) (fault : FileFault)
  | settings (fault : SettingsFault)
  deriving Repr, DecidableEq

namespace SetupFault

def message : SetupFault → String
  | .file path fault => fault.message path
  | .settings fault => fault.message

def isReported : SetupFault → Bool
  | .file .. => true
  | .settings fault => fault.isReported

/-- How the program ends for a fault that it does not report. -/
def crash : SetupFault → Crash
  | .file .. => .nullInPath
  | .settings fault => .settings fault

end SetupFault

/-- What a settings file holds. -/
def readWith (files : Files) (read : List UInt8 → Except SettingsFault α) (name : String) :
    Except SetupFault α :=
  let path := Path.ofText name
  match files path with
  | .error fault => .error (.file path fault)
  | .ok bytes => (read bytes).mapError .settings

/-- The dialect of the options, the default one if they name none. -/
def dialectOf (machine : Machine) (files : Files) (o : Options) : Except SetupFault Dialect :=
  match o.config with
  | some name => readWith files (Dialect.ofFile · machine.depth) name
  | none => .ok {}

/-- The relocation of the options. A file of settings comes before leads on the command line. -/
def relocationOf (machine : Machine) (files : Files) (o : Options) :
    Except SetupFault Relocation :=
  match o.remap, o.leads with
  | some name, _ => (readWith files (SourceMap.ofFile · machine.depth) name).map (·.relocate)
  | none, some leads =>
    let map : SourceMap := { leads := SourceMap.parseLeads leads }
    .ok map.relocate
  | none, none => .ok .identity

def grammarOf (machine : Machine) (files : Files) (o : Options) : Except SetupFault Grammar := do
  let dialect ← dialectOf machine files o
  let relocate ← relocationOf machine files o
  return { dialect, relocate, room := machine.room }

-- ---------------------------------------------------------------------------
-- Traces
-- ---------------------------------------------------------------------------

/-- Why the command ends before its report. -/
inductive Stop where
  | failed
  | crashed (crash : Crash)
  deriving Repr, DecidableEq

def failing (w : Workbench) (path : Path) (reason : String) : Workbench × Option Stop :=
  (w.log ⟨.error, .command, "failed to process " ++ path.text ++ ": " ++ reason⟩, some .failed)

/-- Load one trace. -/
def loadTrace (g : Grammar) (files : Files) (w : Workbench) (path : Path) :
    Workbench × Option Stop :=
  match files.text path with
  | .error .nullInPath => (w, some (.crashed .nullInPath))
  | .error fault => failing w path (fault.message path)
  | .ok text =>
    match w.load g text with
    | (w, .error fault) =>
      if fault.isReported then failing w path fault.message
      else (w, some (.crashed (.fault fault)))
    | (w, .ok _) =>
      let tracked := toString w.store.filenames.length ++ " files tracked"
      (w.log ⟨.info, .command, "processed " ++ path.text ++ " (" ++ tracked ++ ")"⟩, none)

/-- Load traces in order, up to the first that fails. -/
def loadTraces (g : Grammar) (files : Files) : Workbench → List Path → Workbench × Option Stop
  | w, [] => (w, none)
  | w, path :: rest =>
    match loadTrace g files w path with
    | (w, none) => loadTraces g files w rest
    | (w, some stop) => (w, some stop)

-- ---------------------------------------------------------------------------
-- Reports
-- ---------------------------------------------------------------------------

/-- The JSON report, if its numbers can be written. What is printed before one that cannot is left
out. -/
def jsonReport (snapshots : List FileSnapshot) : Except Fault String :=
  let report := records snapshots
  if report.isWritable then .ok report.pretty else .error .overlongNumber

def report (o : Options) (w : Workbench) : Turn :=
  .reporting (if o.json then jsonReport w.store.snapshots else summaryTable w.store.snapshots)

/-- The end of the command after its traces. -/
def finish (g : Grammar) (files : Files) (o : Options) (typed : List String) (w : Workbench) :
    Workbench × Ending :=
  let (w, turn) :=
    if o.shell then Shell.run g files (Shell.start w) typed else (w, report o w)
  match turn.sequel with
  | .crashes crash => (w, .crashed crash turn.output)
  | _ => (w, .finished 0 turn.output)

-- ---------------------------------------------------------------------------
-- The command
-- ---------------------------------------------------------------------------

/-- The engine before the first trace, with the observer that announces events. -/
def workbench : Workbench := { registry := [Journal.announcer], memory := {} }

/-- Read the settings and load the traces. Gives how the command ends if that fails. -/
def prepare (machine : Machine) (files : Files) (o : Options) :
    Except (Workbench × Ending) (Grammar × Workbench) :=
  match grammarOf machine files o with
  | .error fault =>
    if fault.isReported then
      .error (workbench.log ⟨.error, .command, "invalid configuration: " ++ fault.message⟩,
        .finished 1 "")
    else .error (workbench, .crashed fault.crash "")
  | .ok g =>
    match loadTraces g files workbench (o.traces.map Path.ofText) with
    | (w, none) => .ok (g, w)
    | (w, some .failed) => .error (w, .finished 1 "")
    | (w, some (.crashed crash)) => .error (w, .crashed crash "")

/-- Carry out options. -/
def execute (machine : Machine) (files : Files) (o : Options) (typed : List String) :
    Workbench × Ending :=
  match prepare machine files o with
  | .ok (g, w) => finish g files o typed w
  | .error ended => ended

/-- The least severity of the messages that are shown, for the level that the environment names. -/
def thresholdFor (o : Options) (environment : Option String) : Except LevelFault Nat :=
  match o.logLevel with
  | .unsaid => thresholdOf (environment.getD "WARNING")
  | .named name => thresholdOf name
  | .emptied => .error .noName

/-- The options of a command's arguments and the least severity of the messages that are shown. -/
def start (arguments : List String) (environment : Option String) :
    Except Ending (Options × Nat) := do
  let o ← (Options.parse arguments).mapError .refused
  let threshold ← (thresholdFor o environment).mapError fun fault => .crashed (.level fault) ""
  if o.isIdle then throw (.refused .nothingToDo) else return (o, threshold)

/-- Run the command on arguments, with the level that the environment names, files to read and the
lines that are typed into the shell. -/
def run (arguments : List String) (environment : Option String) (files : Files)
    (typed : List String) (machine : Machine := {}) : Outcome :=
  match start arguments environment with
  | .error ending => { ending }
  | .ok (o, threshold) =>
    let (w, ending) := execute machine files o typed
    { ending, log := w.shownMessages threshold }

end Command

end BytecodeCoverage
