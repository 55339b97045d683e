-- SUMMARY: Reading files by their paths, and trees of files that are held in memory.
import BytecodeCoverage.Files.Path
import BytecodeCoverage.Text.Lines
import BytecodeCoverage.Text.Quoted
import BytecodeCoverage.Text.Utf8

/-!
# Files

A reader of files gives the bytes at a path, or why it cannot. A tree of files is such a reader: it
holds the files that were put into it, and the directories that the ways to them lead through.
-/

namespace BytecodeCoverage

/-- Why a file cannot be read. -/
inductive FileFault where
  | notFound
  | notADirectory
  | isADirectory
  /-- A path, or a step that is looked up, has too many bytes. -/
  | nameTooLong
  /-- No path has a null character. -/
  | nullInPath
  /-- Any other answer of the system, with its number. -/
  | other (number : Nat) (text : String)
  deriving Repr, DecidableEq

namespace FileFault

/-- The answer of the system for a path. -/
def answer (number : Nat) (text : String) (path : Path) : String :=
  "[Errno " ++ toString number ++ "] " ++ text ++ ": " ++ Text.quote path.text

def message (path : Path) : FileFault → String
  | .notFound => answer 2 "No such file or directory" path
  | .notADirectory => answer 20 "Not a directory" path
  | .isADirectory => answer 21 "Is a directory" path
  | .nameTooLong => answer 36 "File name too long" path
  | .nullInPath => "embedded null byte"
  | .other number text => answer number text path

end FileFault

abbrev Files := Path → Except FileFault (List UInt8)

/-- The text of a file. Ill-formed bytes are replaced, and every line end is a newline. -/
def Files.text (files : Files) (path : Path) : Except FileFault String :=
  (files path).map fun bytes =>
    String.ofList (Text.unifyNewlines (Text.Utf8.decodeLossy bytes))

-- ---------------------------------------------------------------------------
-- Places
-- ---------------------------------------------------------------------------

/-- Where a way begins. -/
inductive Origin where
  /-- The directory that relative paths begin in, or one so many steps above it. -/
  | working (above : Nat)
  /-- The directory that has none above it. -/
  | top
  deriving Repr, DecidableEq

/-- A place by the names that lead down to it. -/
structure Place where
  origin : Origin := .working 0
  names : List String := []
  deriving Repr, DecidableEq

namespace Place

/-- Where a path begins. -/
def start (path : Path) : Place := { origin := if path.root = "" then .working 0 else .top }

def down (p : Place) (name : String) : Place := { p with names := p.names ++ [name] }

/-- The directory around a place. The one at the top is around itself. -/
def up (p : Place) : Place :=
  match p.names, p.origin with
  | [], .working above => { p with origin := .working (above + 1) }
  | [], .top => p
  | names, _ => { p with names := names.dropLast }

/-- The place that a step leads to. -/
def step (p : Place) (name : String) : Place := if name = ".." then p.up else p.down name

end Place

-- ---------------------------------------------------------------------------
-- Trees
-- ---------------------------------------------------------------------------

/-- The files that were put at places, each place once, and the directories that were made. -/
structure FileTree where
  directories : List Place := []
  files : List (Place × List UInt8) := []
  deriving Repr, DecidableEq

namespace FileTree

/-- The greatest number of bytes that a step may have. -/
def stepLimit : Nat := 255

/-- The greatest number of bytes that a whole path may have. -/
def pathLimit : Nat := 4095

def file? (tree : FileTree) (place : Place) : Option (List UInt8) := tree.files.lookup place

/-- Whether there is a directory at a place. Ways begin in directories. -/
def hasDirectory (tree : FileTree) (place : Place) : Bool :=
  place.names.isEmpty || tree.directories.contains place

/-- Follow steps from a directory to a file. -/
def follow (tree : FileTree) (place : Place) : List String → Except FileFault (List UInt8)
  | [] => .error .isADirectory
  | step :: rest =>
    let next := place.step step
    if stepLimit < step.utf8ByteSize then .error .nameTooLong
    else match tree.file? next with
      | some bytes => if rest = [] then .ok bytes else .error .notADirectory
      | none => if tree.hasDirectory next then tree.follow next rest else .error .notFound

/-- Read a file of the tree. -/
def read (tree : FileTree) : Files := fun path =>
  if '\x00' ∈ path.text.toList then .error .nullInPath
  else if pathLimit < path.text.utf8ByteSize then .error .nameTooLong
  else tree.follow (Place.start path) path.steps

/-- The directories that the way to the last step leads through. -/
def passed (place : Place) : List String → List Place
  | [] => []
  | [_] => []
  | step :: rest => place.step step :: passed (place.step step) rest

/-- Put a file, or other bytes into it, and make the directories on the way. -/
def put (tree : FileTree) (path : String) (bytes : List UInt8) : FileTree :=
  let path := Path.ofText path
  let place := path.steps.foldl Place.step (Place.start path)
  { directories := passed (Place.start path) path.steps ++ tree.directories
    files := (place, bytes) :: tree.files.filter (·.1 ≠ place) }

/-- The tree of some files by their paths, the last of a path. -/
def ofFiles (files : List (String × List UInt8)) : FileTree :=
  files.foldl (fun tree (path, bytes) => tree.put path bytes) {}

end FileTree

end BytecodeCoverage
