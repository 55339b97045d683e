-- SUMMARY: The observers of the command and the shell, and what they keep.
import BytecodeCoverage.Diagnostics
import BytecodeCoverage.Engine

/-!
# The journal

The command announces every event in the log as it comes up. The shell records events, to list those
of a dump after it was loaded. The journal is the memory of both, and the log of the program.
-/

namespace BytecodeCoverage

structure Journal where
  /-- The log, latest message first. -/
  messages : List LogRecord := []
  recorder : Recorder := {}
  deriving Repr, DecidableEq

namespace Journal

def log (j : Journal) (r : LogRecord) : Journal := { j with messages := r :: j.messages }

def logAll (j : Journal) (rs : List LogRecord) : Journal := rs.foldl log j

/-- The observer that announces events. -/
def announcer : ObserverId := 0

/-- The observer that records events. -/
def recording : ObserverId := 1

def announcement (e : Event) (description : String) : LogRecord :=
  ⟨.info, .events, e.kind.handlerName ++ " " ++ description⟩

def record (e : Event) (j : Journal) : Journal := { j with recorder := j.recorder.record e }

/-- Announcing describes the event, and fails where that does. -/
def behaviour : Behaviour Journal := fun observer _ =>
  if observer = announcer then
    some fun e store _ =>
      match (e.notice store).describe with
      | .ok description => .remember (·.log (announcement e description)) .done
      | .error fault => .raise fault
  else if observer = recording then some fun e _ _ => .remember (record e) .done
  else none

end Journal

/-- The engine of the command and the shell. -/
abbrev Workbench := Engine Journal

namespace Workbench

def log (w : Workbench) (r : LogRecord) : Workbench := { w with memory := w.memory.log r }

/-- The messages that a threshold lets through, in their order. -/
def shownMessages (w : Workbench) (threshold : Nat) : List LogRecord :=
  w.memory.messages.reverse.filter (·.isShown threshold)

/-- Parse a dump, with remarks on the reading of it in the log. -/
def load (g : Grammar) (w : Workbench) (text : String) : Workbench × ParseResult :=
  let memory := w.memory.logAll ((traceRemarks g text).map Remark.toLog)
  Engine.parse g Journal.behaviour { w with memory } text

/-- Take the recorded events. -/
def drain (w : Workbench) : List Event × Workbench :=
  let (events, recorder) := w.memory.recorder.drain
  (events, { w with memory := { w.memory with recorder } })

end Workbench

end BytecodeCoverage
