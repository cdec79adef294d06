/-
The program: from a command line and the files that exist to what it writes.

Nothing is written unless everything before it succeeded. A document goes to one place,
the standard output or one file, and a failure says so on the standard error and leaves
all files as they are. Some mistakes end the program without a status of its own, because
nothing expects them. Four are mistakes of its configuration: a threshold that does not
exist, one that is asked for but not given, an output suffix that no file name can take,
and, where help is asked for, a style code that the help text cannot show. The others are
a NUL in the name of a file or in a script.
-/
import OutlineTex.CommandLine.Help
import OutlineTex.Conversion
import OutlineTex.Text.Uppercase

set_option autoImplicit false

namespace OutlineTex

open OutlineTex.Text OutlineTex.CommandLine

/-! ## What a run of the program leaves -/

/-- The interpreter that scripts run in by default. -/
def defaultInterpreter : String := "python3"

/-- Why the program ends without a status of its own. -/
inductive Crash
  | unknownLevel (name : String)
  | missingLevel
  | outputSuffix (fault : Path.SuffixFault)
  | help (fault : Template.Fault)
  /-- The conversion failed, and not in a way that is expected. -/
  | conversion (failure : Failure)
  /-- The path of the document has a NUL. -/
  | target (path : Path)
deriving DecidableEq, Repr

/-- The reason in words. -/
def Crash.message : Crash → String
  | .unknownLevel name => s!"Unknown level: {quoted name}"
  | .missingLevel => "'list' object has no attribute 'upper'"
  | .outputSuffix fault => fault.message
  | .help fault => fault.message
  | .conversion failure => failure.message
  | .target _ => nulMessage

/-- How the program ends: its status, what it wrote to the two standard channels, and the
files as they are then. -/
structure Exit where
  status : Nat
  stdout : String := ""
  stderr : String := ""
  files : FileSystem

/-- A run of the program: how it ended, the events at or above the threshold, and the
processes that were started. -/
structure Execution where
  result : Except Crash Exit
  events : List Event := []
  launches : List Launch := []

namespace Program

/-! ## Converting -/

/-- What evaluates scripts: the settings and the command line both have to allow it. -/
def evaluator (settings : Settings) (arguments : Arguments) : Evaluator :=
  if settings.allowScripts && !arguments.noScripts then
    .interpreter defaultInterpreter settings.scriptTimeout
  else .disabled

/-- The world that a command line runs in. -/
def world (settings : Settings) (files : FileSystem) (processes : ProcessWorld)
    (arguments : Arguments) : World where
  files
  outlineSuffix := settings.outlineSuffix
  evaluator := evaluator settings arguments
  processes

/-- How a command line asks an outline to be converted. A style code that is not given
spells no style. -/
def conversionOptions (settings : Settings) (arguments : Arguments) : ConversionOptions where
  styleCode := arguments.format.getD ""
  escaping := settings.escape && !arguments.noEscape
  showPreliminary := arguments.showPreliminary

/-- The end of a run that failed, and the event that reports it. -/
def failed (files : FileSystem) (input : Path) (message : String) :
    Except Crash Exit × List Event :=
  (.ok { status := 1, stderr := s!"{programName}: {message}\n", files },
    [.failed input message])

/-- The end of a run whose conversion failed. -/
def failedBy (files : FileSystem) (input : Path) (failure : Failure) :
    Except Crash Exit × List Event :=
  if failure.isNul then (.error (.conversion failure), [])
  else failed files input failure.message

/-- Puts the result of a conversion where the command line wants it. -/
def deliver (settings : Settings) (files : FileSystem) (arguments : Arguments)
    (result : Except Failure Conversion) : Except Crash Exit × List Event :=
  let input := arguments.input
  if arguments.stdout then
    match result with
    | .error failure => failedBy files input failure
    | .ok conversion => (.ok { status := 0, stdout := conversion.document, files }, [])
  else
    match FileConversion.ofResult files settings.outputSuffix input arguments.output result with
    | .error (.conversion failure) => failedBy files input failure
    | .error (.outputSuffix fault) => (.error (.outputSuffix fault), [])
    | .error (.writing path fault) =>
      if fault.isNul then (.error (.target path), [])
      else failed files input (fault.message path)
    | .ok written =>
      (.ok { status := 0, files := written.files }, [.completed input written.path])

/-- Converts the outline that the command line names. -/
def convert (settings : Settings) (files : FileSystem) (processes : ProcessWorld)
    (arguments : Arguments) : Execution :=
  let outcome := (world settings files processes arguments).convert settings.documentClass
    (conversionOptions settings arguments) arguments.input
  let (result, events) := deliver settings files arguments outcome.result
  { result, launches := outcome.run.launches,
    events := .started arguments.input arguments.format :: outcome.events ++ events }

/-- The execution with only the events that a threshold lets through. -/
def atLeast (threshold : Nat) (execution : Execution) : Execution :=
  { execution with events := execution.events.filter (threshold ≤ ·.severity.rank) }

/-- The end of a run that gives help. -/
def helped (settings : Settings) (files : FileSystem) : Except Crash Exit :=
  match help settings.styleCode with
  | .error fault => .error (.help fault)
  | .ok text => .ok { status := 0, stdout := text, files }

/-- The rank of the threshold that a command line asks for. -/
def threshold (arguments : Arguments) : Except Crash Nat :=
  match arguments.logLevel with
  | none => .error .missingLevel
  | some name =>
    let level := String.ofList (uppercase name.toList)
    match Severity.threshold? level with
    | none => .error (.unknownLevel level)
    | some rank => .ok rank

/-- A run of the program on the words of a command line. -/
def run (settings : Settings) (files : FileSystem) (processes : ProcessWorld)
    (words : List String) : Execution :=
  match Arguments.ofWords settings.styleCode settings.logLevel words with
  | .error .help => { result := helped settings files }
  | .error (.fault fault) => { result := .ok { status := 2, stderr := fault.report, files } }
  | .ok arguments =>
    match threshold arguments with
    | .error fault => { result := .error fault }
    | .ok rank => atLeast rank (convert settings files processes arguments)

end Program

end OutlineTex
