-- SUMMARY: What a typed line asks of the shell.
import BytecodeCoverage.Files.Path
import BytecodeCoverage.Shell.Words
import BytecodeCoverage.Text.Blank

/-!
# Requests

The first word of a line is the name of a command, the others are its arguments. Commands that take
no argument pass over those they are given.

Between words stand only characters that are also stripped from the ends of a line. So a line that
is not blank begins with a word, and there is no line that is cut into no words.
-/

namespace BytecodeCoverage

inductive Request where
  | nothing
  | unreadable (fault : Words.Fault)
  | quit
  | unknown (name : String)
  | load (path : Path)
  | show_ (file : String)
  /-- A command with the wrong number of arguments. -/
  | misused (usage : String)
  | files
  | summary
  | help
  deriving Repr, DecidableEq

namespace Request

def commandNames : List String := ["load", "files", "show", "summary", "help"]

def quitNames : List String := ["quit", "exit"]

/-- The request of some words, the first of which is the command. -/
def ofWords (name : String) (arguments : List String) : Request :=
  if name ∈ quitNames then .quit
  else if name = "load" then
    match arguments with
    | [path] => .load (.ofText path)
    | _ => .misused "load PATH"
  else if name = "show" then
    match arguments with
    | [file] => .show_ file
    | _ => .misused "show FILE"
  else if name = "files" then .files
  else if name = "summary" then .summary
  else if name = "help" then .help
  else .unknown name

theorem isBlank_of_isSeparator {c : Char} (h : Words.isSeparator c = true) :
    Text.isBlank c = true := by
  simp only [Words.isSeparator, Bool.or_eq_true, decide_eq_true_eq] at h
  rcases h with ((rfl | rfl) | rfl) | rfl
  · decide
  · decide
  · decide
  · decide

/-- A line without words is blank. -/
theorem stripBlanks_of_split {stripped cs : List Char} (h : Text.stripBlanks cs = stripped)
    (hwords : Words.split (String.ofList stripped) = .ok []) : stripped = [] := by
  cases stripped with
  | nil => rfl
  | cons c rest =>
    have hblank := Text.isBlank_of_stripBlanks_eq_cons h
    have hseparator : Words.isSeparator c = false := by
      rw [← Bool.not_eq_true] at hblank ⊢
      exact mt isBlank_of_isSeparator hblank
    exact absurd hwords (Words.split_ne_nil hseparator rest)

/-- The request of a typed line. A line that is not blank has a first word, if it has words. -/
def ofLine (line : String) : Request :=
  match hline : Text.stripBlanks line.toList with
  | [] => .nothing
  | c :: rest =>
    match hwords : Words.split (String.ofList (c :: rest)) with
    | .error fault => .unreadable fault
    | .ok [] => absurd (stripBlanks_of_split hline hwords) (List.cons_ne_nil c rest)
    | .ok (name :: arguments) => ofWords name arguments

end Request

end BytecodeCoverage
