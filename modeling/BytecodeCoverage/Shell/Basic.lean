-- SUMMARY: The shell: load dumps one by one and look at what they change.
import BytecodeCoverage.Files.Tree
import BytecodeCoverage.Report.Table
import BytecodeCoverage.Settings.Fault
import BytecodeCoverage.Shell.Journal
import BytecodeCoverage.Shell.Request

/-!
# The shell

A turn of the shell answers one typed line. Files that cannot be read and dumps with faults are told
and leave the store as it was. Numbers that are too long, and paths that cannot be, end the program,
after what the turn has printed by then.
-/

namespace BytecodeCoverage

/-- What ends the program. -/
inductive Crash where
  | level (fault : LevelFault)
  | fault (fault : Fault)
  | settings (fault : SettingsFault)
  | nullInPath
  deriving Repr, DecidableEq

/-- Faults that a trace can have, which are told. The others end the program. -/
def Fault.isReported : Fault → Bool
  | .unresolvedTarget .. => true
  | .signatureMismatch .. => true
  | .reentrantParse => true
  | _ => false

/-- What follows a turn. -/
inductive Sequel where
  | goesOn
  | quits
  | crashes (crash : Crash)
  deriving Repr, DecidableEq

/-- The answer to typed lines: what is printed, and what follows. -/
structure Turn where
  output : String := ""
  sequel : Sequel := .goesOn
  deriving Repr, DecidableEq

namespace Turn

/-- Lines of output, each with its end. -/
def printing (lines : List String) : Turn :=
  { output := lines.foldl (fun text line => text ++ line ++ "\n") "" }

def crashing (crash : Crash) : Turn := { sequel := .crashes crash }

/-- A turn that prints what a report gives. -/
def reporting (report : Except Fault String) : Turn :=
  match report with
  | .ok text => printing [text]
  | .error fault => crashing (.fault fault)

/-- A turn and, if it goes on, another one. -/
def followedBy (t : Turn) (next : Turn) : Turn :=
  match t.sequel with
  | .goesOn => { next with output := t.output ++ next.output }
  | _ => t

end Turn

namespace Shell

def helpText : String :=
  Text.joinWith "\n"
    ["load PATH   parse a trace dump and list the changes it caused",
     "files       list files seen so far",
     "show FILE   per-line coverage of FILE",
     "summary     per-file coverage totals",
     "help        this text",
     "quit        leave the shell"]

/-- The line for an event that a dump caused. -/
def eventLine (store : Store) (e : Event) : Except Fault String :=
  (e.notice store).describe.map fun description => e.kind.handlerName ++ ": " ++ description

/-- Print events one by one, up to the first that cannot be told. -/
def listEvents (store : Store) (events : List Event) : Turn :=
  events.foldl (fun turn e => turn.followedBy (.reporting (eventLine store e))) {}

/-- A turn that tells why a command failed. -/
def failing (w : Workbench) (command reason : String) : Workbench × Turn :=
  (w.log ⟨.debug, .shell, "command " ++ command ++ " failed"⟩,
    .printing ["Command '" ++ command ++ "' failed: " ++ reason])

/-- Parse the text of a loaded file and list the events. -/
def loadText (g : Grammar) (w : Workbench) (text : String) : Workbench × Turn :=
  match w.drain.2.load g text with
  | (w, .error fault) =>
    if fault.isReported then failing w "load" fault.message else (w, .crashing (.fault fault))
  | (w, .ok _) =>
    let (events, w) := w.drain
    (w, if events = [] then .printing ["no changes"] else listEvents w.store events)

def load (g : Grammar) (files : Files) (w : Workbench) (path : Path) : Workbench × Turn :=
  match files.text path with
  | .error .nullInPath => (w, .crashing .nullInPath)
  | .error fault => failing w "load" (fault.message path)
  | .ok text => loadText g w text

/-- Answer a request. -/
def answer (g : Grammar) (files : Files) (w : Workbench) (r : Request) : Workbench × Turn :=
  match r with
  | .nothing => (w, {})
  | .quit => (w, { sequel := .quits })
  | .unreadable fault => (w, .printing ["Parse error: " ++ fault.message])
  | .unknown name => (w, .printing ["Unknown command: " ++ name])
  | .misused usage => (w, .printing ["usage: " ++ usage])
  | .load path => load g files w path
  | .files => (w, .printing w.store.filenames)
  | .show_ file =>
    (w, match w.store.find? file with
      | none => .printing ["No coverage for " ++ file]
      | some snapshot => .reporting (lineTable snapshot))
  | .summary => (w, .reporting (summaryTable w.store.snapshots))
  | .help => (w, .printing [helpText])

/-- Answer a typed line. -/
def execute (g : Grammar) (files : Files) (w : Workbench) (line : String) : Workbench × Turn :=
  answer g files w (.ofLine line)

/-- The words that complete a typed line, in ascending order. -/
def completions (w : Workbench) : List String :=
  ((Request.commandNames ++ Request.quitNames ++ w.store.filenames).eraseDups).mergeSort (· ≤ ·)

/-- Answer typed lines until one does not go on or they end. At their end a line is broken. -/
def run (g : Grammar) (files : Files) (w : Workbench) : List String → Workbench × Turn
  | [] => (w, .printing [""])
  | line :: rest =>
    match execute g files w line with
    | (w, turn) =>
      if turn.sequel = .goesOn then
        let (w, more) := run g files w rest
        (w, turn.followedBy more)
      else (w, turn)

/-- The shell begins to record. -/
def start (w : Workbench) : Workbench := w.addObserver Journal.recording

end Shell

end BytecodeCoverage
