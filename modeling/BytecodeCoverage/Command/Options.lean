-- SUMMARY: The options and arguments of the command.
import BytecodeCoverage.Text.Digit
import BytecodeCoverage.Text.Quoted
import BytecodeCoverage.Text.Scan

/-!
# Options

An argument is told to be an option, a value, or the double dash after which all are values, before
any of them is acted on. A long option may be cut short as far as it stays the only one with that
beginning, and its value may follow an equals sign, where a double dash stands for no value. Values
that look like negative numbers, or that hold a space, are values for all that they start with a
dash.

The files to be read are the first run of values that no option takes. What is left over is an
error, once everything has been looked at.
-/

namespace BytecodeCoverage

inductive OptionKind where
  | help
  | json
  | config
  | leads
  | remap
  | shell
  | logLevel
  deriving Repr, DecidableEq

namespace OptionKind

/-- The spellings of the options. -/
def spellings : List (String × OptionKind) :=
  [("-h", .help), ("--help", .help), ("--json", .json), ("--config", .config),
   ("--prefix-map", .leads), ("--remap", .remap), ("--shell", .shell), ("--log-level", .logLevel)]

def takesValue : OptionKind → Bool
  | .config => true
  | .leads => true
  | .remap => true
  | .logLevel => true
  | _ => false

/-- The spellings of an option as errors name it. -/
def label (k : OptionKind) : String :=
  Text.joinWith "/" ((spellings.filter (·.2 = k)).map (·.1))

end OptionKind

/-- Why a command cannot begin. -/
inductive OptionFault where
  /-- Help was asked for. -/
  | helpAsked
  | ambiguous (argument : String) (spellings : List String)
  | valueMissing (option : OptionKind)
  | valueIgnored (option : OptionKind) (value : String)
  | leftOver (arguments : List String)
  | nothingToDo
  deriving Repr, DecidableEq

def OptionFault.message : OptionFault → String
  | .helpAsked => ""
  | .ambiguous argument spellings =>
    "ambiguous option: " ++ argument ++ " could match " ++ Text.joinWith ", " spellings
  | .valueMissing option => "argument " ++ option.label ++ ": expected one argument"
  | .valueIgnored option value =>
    "argument " ++ option.label ++ ": ignored explicit argument " ++ Text.quote value
  | .leftOver arguments => "unrecognized arguments: " ++ Text.joinWith " " arguments
  | .nothingToDo => "at least one trace file is required unless --shell is given"

-- ---------------------------------------------------------------------------
-- Telling options from values
-- ---------------------------------------------------------------------------

inductive Argument where
  | value (text : String)
  | dashes
  /-- An option as it was spelled, with the value behind its equals sign or its letter. -/
  | option (kind : OptionKind) (spelling : String) (attached : Option String)
  | unknown (text : String)
  deriving Repr, DecidableEq

namespace Argument

/-- The two sides of an argument, cut at its first equals sign. -/
def atEquals? (cs : List Char) : Option (List Char × String) :=
  match cs.dropWhile (· ≠ '=') with
  | [] => none
  | _ :: side => some (cs.takeWhile (· ≠ '='), String.ofList side)

def isNegativeNumber (cs : List Char) : Bool :=
  match Text.dropFinalNewline cs with
  | '-' :: rest =>
    let (whole, more) := rest.span Text.isDigit
    match more with
    | [] => whole ≠ []
    | '.' :: fraction => fraction ≠ [] && fraction.all Text.isDigit
    | _ => false
  | _ => false

/-- The options that an argument may be short for, or the option of a single letter that it starts
with. -/
def candidates (cs : List Char) : List Argument :=
  match cs with
  | '-' :: '-' :: _ =>
    let (lead, attached) := match atEquals? cs with
      | some (lead, side) => (lead, some side)
      | none => (cs, none)
    (OptionKind.spellings.filter fun entry => lead.isPrefixOf entry.1.toList).map
      fun (spelling, kind) => .option kind spelling attached
  | _ =>
    (OptionKind.spellings.filter fun entry => entry.1.toList = cs.take 2).map
      fun (spelling, kind) => .option kind spelling (some (String.ofList (cs.drop 2)))

def spelling : Argument → String
  | .option _ spelling _ => spelling
  | _ => ""

/-- What an argument before any double dash is. -/
def classify (text : String) : Except OptionFault Argument :=
  let cs := text.toList
  if cs.head? ≠ some '-' ∨ cs = ['-'] then .ok (.value text)
  else match OptionKind.spellings.lookup text with
    | some kind => .ok (.option kind text none)
    | none =>
      let exact := (atEquals? cs).bind fun (lead, side) =>
        (OptionKind.spellings.lookup (String.ofList lead)).map
          (Argument.option · (String.ofList lead) (some side))
      match exact with
      | some argument => .ok argument
      | none =>
        match candidates cs with
        | [argument] => .ok argument
        | [] => .ok (if isNegativeNumber cs ∨ ' ' ∈ cs then .value text else .unknown text)
        | several => .error (.ambiguous text (several.map spelling))

def classifyAll : List String → Except OptionFault (List Argument)
  | [] => .ok []
  | text :: rest =>
    if text = "--" then .ok (.dashes :: rest.map .value)
    else do return (← classify text) :: (← classifyAll rest)

end Argument

-- ---------------------------------------------------------------------------
-- Acting on options
-- ---------------------------------------------------------------------------

/-- What the options say of the level of messages. -/
inductive LevelChoice where
  | unsaid
  | named (name : String)
  /-- The option was given for no level. -/
  | emptied
  deriving Repr, DecidableEq

structure Options where
  traces : List String := []
  json : Bool := false
  config : Option String := none
  leads : Option String := none
  remap : Option String := none
  shell : Bool := false
  logLevel : LevelChoice := .unsaid
  deriving Repr, DecidableEq

namespace Options

def setFlag (o : Options) : OptionKind → Except OptionFault Options
  | .help => .error .helpAsked
  | .json => .ok { o with json := true }
  | .shell => .ok { o with shell := true }
  | _ => .ok o

/-- Set the value of an option, or take back the one that it has. -/
def setValue (o : Options) (value : Option String) : OptionKind → Options
  | .config => { o with config := value }
  | .leads => { o with leads := value }
  | .remap => { o with remap := value }
  | .logLevel => { o with logLevel := (value.map .named).getD .emptied }
  | _ => o

/-- The value behind an equals sign. A double dash there is none. -/
def attachedValue (text : String) : Option String := if text = "--" then none else some text

/-- The letters behind the one of a single-letter option, each an option of its own. -/
def checkLetters (kind : OptionKind) (letters : List Char) : Except OptionFault Unit :=
  match letters with
  | [] => .ok ()
  | letter :: rest =>
    match OptionKind.spellings.lookup (String.ofList ['-', letter]) with
    | some next => checkLetters next rest
    | none => .error (.valueIgnored kind (String.ofList letters))

/-- Act on an option without a value to which one is attached. -/
def attachToFlag (o : Options) (kind : OptionKind) (spelling value : String) :
    Except OptionFault Options :=
  if value = "" ∨ spelling.startsWith "--" then .error (.valueIgnored kind value)
  else do
    checkLetters kind value.toList
    o.setFlag kind

/-- How far the reading has come with the files to be read. -/
inductive Phase where
  | before
  | within
  | past
  deriving Repr, DecidableEq

/-- An option ends the run of files. -/
def Phase.afterOption : Phase → Phase
  | .within => .past
  | phase => phase

/-- Act on arguments in their order, and collect those that are left over. -/
def act (o : Options) (phase : Phase) (left : List String) :
    List Argument → Except OptionFault Options
  | [] => if left = [] then .ok o else .error (.leftOver left)
  | .value text :: rest =>
    if phase = .past then act o phase (left ++ [text]) rest
    else act { o with traces := o.traces ++ [text] } .within left rest
  | .dashes :: rest =>
    if phase = .past then act o phase (left ++ ["--"]) rest else act o .within left rest
  | .unknown text :: rest => act o phase.afterOption (left ++ [text]) rest
  | .option kind spelling (some value) :: rest =>
    if kind.takesValue then act (o.setValue (attachedValue value) kind) phase.afterOption left rest
    else do act (← o.attachToFlag kind spelling value) phase.afterOption left rest
  | .option kind _ none :: rest =>
    if kind.takesValue then
      match rest with
      | .value text :: rest => act (o.setValue (some text) kind) phase.afterOption left rest
      | _ => .error (.valueMissing kind)
    else do act (← o.setFlag kind) phase.afterOption left rest

/-- The options of a command's arguments. -/
def parse (arguments : List String) : Except OptionFault Options := do
  act {} .before [] (← Argument.classifyAll arguments)

/-- Whether there is neither a file to be read nor anyone to ask. -/
def isIdle (o : Options) : Bool := o.traces.isEmpty && !o.shell

end Options

end BytecodeCoverage
