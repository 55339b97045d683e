-- SUMMARY: The program: read files and typed lines for the command, and print what it answers.
import BytecodeCoverage.Command.Basic

/-!
# The program

Reading and printing only. The files that the command will ask for are read before it runs, and so
is the file of a typed line before the shell answers it.
-/

namespace BytecodeCoverage.Program

/-- The number of a system's error, which some of its calls give negated. -/
def errorNumber (n : UInt32) : Nat := if n < 0x80000000 then n.toNat else (-n).toNat

/-- Why the system did not give a file. -/
def fileFault : IO.Error → FileFault
  | .noFileOrDirectory .. => .notFound
  | .inappropriateType _ n details => numbered (errorNumber n) details
  | .permissionDenied _ n _ => numbered (errorNumber n) "Permission denied"
  | .invalidArgument _ n details => numbered (errorNumber n) details
  | e => .other 5 (toString e)
where
  numbered (number : Nat) (details : String) : FileFault :=
    match number with
    | 20 => .notADirectory
    | 21 => .isADirectory
    | 36 => .nameTooLong
    | number => .other number details

def readFile (path : Path) : IO (Except FileFault (List UInt8)) := do
  if '\x00' ∈ path.text.toList then return .error .nullInPath
  try
    return .ok (← IO.FS.readBinFile path.text).toList
  catch e => return .error (fileFault e)

/-- A reader for the files at some paths. -/
def filesAt (paths : List Path) : IO Files := do
  let found ← paths.mapM fun path => return (path, ← readFile path)
  return fun path => (found.lookup path).getD (.error .notFound)

/-- The paths that options name. -/
def pathsOf (o : Options) : List Path :=
  (o.config.toList ++ o.remap.toList ++ o.traces).map Path.ofText

def crashText : Crash → String
  | .level fault => fault.message
  | .fault fault => fault.message
  | .settings fault => fault.message
  | .nullInPath => FileFault.nullInPath.message {}

/-- Ask for lines and answer them, until one quits or they end. -/
partial def shell (g : Grammar) (w : Workbench) (shown : Nat) (threshold : Nat) : IO UInt32 := do
  let stdout ← IO.getStdout
  stdout.putStr "tracecov> "
  stdout.flush
  let line ← (← IO.getStdin).getLine
  if line.isEmpty then
    stdout.putStrLn ""
    return 0
  let paths := match Request.ofLine line with
    | .load path => [path]
    | _ => []
  let (w, turn) := Shell.execute g (← filesAt paths) w line
  for r in (w.memory.messages.take (w.memory.messages.length - shown)).reverse do
    if r.isShown threshold then IO.eprintln r.text
  stdout.putStr turn.output
  match turn.sequel with
  | .goesOn => shell g w w.memory.messages.length threshold
  | .quits => return 0
  | .crashes crash =>
    IO.eprintln (crashText crash)
    return 1

/-- Print an outcome. -/
def conclude (outcome : Outcome) : IO UInt32 := do
  for r in outcome.log do IO.eprintln r.text
  match outcome.ending with
  | .finished status output =>
    IO.print output
    return status.toUInt32
  | .refused .helpAsked =>
    IO.println ("options: " ++ Text.joinWith " " (OptionKind.spellings.map (·.1)))
    return 0
  | .refused fault =>
    IO.eprintln ("error: " ++ fault.message)
    return 2
  | .crashed crash output =>
    IO.print output
    IO.eprintln (crashText crash)
    return 1

/-- Load the traces that options name, then ask for lines. -/
def interact (o : Options) (threshold : Nat) (files : Files) : IO UInt32 := do
  match Command.prepare {} files o with
  | .error (w, ending) =>
    conclude { ending, log := w.shownMessages threshold }
  | .ok (g, w) =>
    for r in w.shownMessages threshold do IO.eprintln r.text
    shell g (Shell.start w) w.memory.messages.length threshold

def run (arguments : List String) : IO UInt32 := do
  let environment ← IO.getEnv "TRACECOV_LOG"
  match Command.start arguments environment with
  | .error ending => conclude { ending }
  | .ok (o, threshold) =>
    let files ← filesAt (pathsOf o)
    if o.shell then interact o threshold files
    else conclude (Command.run arguments environment files [])

end BytecodeCoverage.Program

def main (arguments : List String) : IO UInt32 := BytecodeCoverage.Program.run arguments
