-- SUMMARY: What observers are told: events, and the notices that they amount to.
import BytecodeCoverage.Store

/-!
# Events and notices

An event names what changed and does not copy it. Read later, it shows the store as it is then. A
notice is an event with the data that it names at some time, and that is what is described.

Lines that were adopted are reported by their line number, lines that were revised by their index.
-/

namespace BytecodeCoverage

inductive EventKind where
  | newFile
  | fileUpdate
  | lineUpdate
  deriving Repr, DecidableEq

/-- The name of the handler for the events of a kind. -/
def EventKind.handlerName : EventKind → String
  | .newFile => "on_new_script"
  | .fileUpdate => "on_script_update"
  | .lineUpdate => "on_line_update"

inductive Event where
  | newFile (file : String)
  | lineAdopted (file : String) (index : Nat)
  | lineRevised (file : String) (index : Nat)
  | totalsChanged (file : String)
  deriving Repr, DecidableEq

def Change.event : Change → Event
  | .addFile snapshot => .newFile snapshot.filename
  | .changeFile file (.adopt i _) => .lineAdopted file i
  | .changeFile file (.revise i _ _) => .lineRevised file i
  | .changeFile file (.retotal _) => .totalsChanged file

/-- An event with its data. -/
inductive Notice where
  | plain (file : String)
  | file (file : String) (snapshot : Option FileSnapshot)
  | line (file : String) (number : Int) (data : Option LineSnapshot)
  deriving Repr, DecidableEq

namespace Event

def kind : Event → EventKind
  | .newFile _ => .newFile
  | .lineAdopted .. => .lineUpdate
  | .lineRevised .. => .lineUpdate
  | .totalsChanged _ => .fileUpdate

def file : Event → String
  | .newFile file => file
  | .lineAdopted file _ => file
  | .lineRevised file _ => file
  | .totalsChanged file => file

/-- The number under which a line is reported. -/
def reported? : Event → Option Nat
  | .lineAdopted _ i => some (i + 1)
  | .lineRevised _ i => some i
  | _ => none

/-- The event with what the store has for it. -/
def notice (store : Store) (e : Event) : Notice :=
  match e with
  | .newFile file => .file file (store.find? file)
  | .totalsChanged file => .file file (store.find? file)
  | .lineAdopted file i => .line file (i + 1) ((store.find? file).bind (·.line? i))
  | .lineRevised file i => .line file i ((store.find? file).bind (·.line? i))

end Event

namespace Notice

/-- The numbers that the description of a notice shows. -/
def numbers : Notice → List Int
  | .plain _ => []
  | .file _ none => []
  | .file _ (some s) => s.totals.toList
  | .line _ number none => [number]
  | .line _ number (some data) => number :: data.counts

def text : Notice → String
  | .plain name => name
  | .file name none => name
  | .file name (some s) =>
    name ++ ": full=" ++ toString s.totals.full ++ " some=" ++ toString s.totals.mixed ++
      " none=" ++ toString s.totals.missed ++ " dead=" ++ toString s.totals.dead
  | .line name number none => name ++ " line " ++ toString number
  | .line name number (some data) =>
    name ++ " line " ++ toString number ++ ": " ++ data.coverage.label ++ " [" ++
      Text.joinWith ", " (data.counts.map toString) ++ "]"

/-- The description, if its numbers can be written. -/
def describe (n : Notice) : Except Fault String :=
  if n.numbers.all Numeral.isWritable then .ok n.text else .error .overlongNumber

end Notice

end BytecodeCoverage
