/-
Events: what a run reports about itself.

An event is kept as what happened, with all that is known about it, and has a severity,
the part of the program that reports it, and a message in words. Some events carry named
values beside their message. Which events are shown depends on a threshold.
-/
import OutlineTex.Directive
import OutlineTex.Script
import OutlineTex.Node
import OutlineTex.StyleStack

set_option autoImplicit false

namespace OutlineTex

/-- How important an event is. -/
inductive Severity
  | debug
  | info
  | warning
  | error
deriving DecidableEq, Repr

/-- The rank of a severity. -/
def Severity.rank : Severity → Nat
  | .debug => 10
  | .info => 20
  | .warning => 30
  | .error => 40

/-- The name of a severity. -/
def Severity.name : Severity → String
  | .debug => "DEBUG"
  | .info => "INFO"
  | .warning => "WARNING"
  | .error => "ERROR"

/-- The rank that a threshold's name stands for. -/
def Severity.threshold? : String → Option Nat
  | "CRITICAL" => some 50
  | "FATAL" => some 50
  | "ERROR" => some 40
  | "WARN" => some 30
  | "WARNING" => some 30
  | "INFO" => some 20
  | "DEBUG" => some 10
  | "NOTSET" => some 0
  | _ => none

/-- What happened in a run. -/
inductive Event
  /-- A node was recognised as a directive. -/
  | recognised (node : Node) (directive : Directive)
  /-- A file was not included again. -/
  | skipped (path : Path)
  /-- An outline is included, at the depth of the directive. -/
  | enteredOutline (once : Bool) (place : Location) (path : Path) (depth : Nat)
  /-- A raw file is included. -/
  | enteredFile (once : Bool) (place : Location) (path : Path)
  /-- The styles were switched. -/
  | switched (source : String) (styles : StyleStack) (temporary : Bool)
  /-- A temporary switch was undone. -/
  | restored (styles : StyleStack)
  /-- A script is about to run. -/
  | evaluating (lineCount : Nat)
  /-- A script failed. -/
  | scriptFailed (source : String) (fault : ScriptFault)
  /-- An outline was rendered. -/
  | rendered (path : Path) (lineCount : Nat)
  /-- A conversion begins, with a style code or without one. -/
  | started (input : Path) (format : Option String)
  /-- A conversion has written its document. -/
  | completed (input output : Path)
  /-- A conversion failed. -/
  | failed (input : Path) (message : String)
deriving Repr

namespace Event

/-- The severity of an event. -/
def severity : Event → Severity
  | .scriptFailed .. => .warning
  | .started .. => .info
  | .completed .. => .info
  | .failed .. => .error
  | _ => .debug

/-- The part of the program that reports an event. -/
def reporter : Event → String
  | .restored _ => "otl2latex.renderer"
  | .evaluating _ => "otl2latex.scripting"
  | .rendered .. => "otl2latex.document"
  | .started .. => "otl2latex.cli"
  | .completed .. => "otl2latex.cli"
  | .failed .. => "otl2latex.cli"
  | _ => "otl2latex.directives"

/-- The event in words. -/
def message : Event → String
  | .recognised node directive => s!"{node.source}: !{directive.name} directive"
  | .skipped path => s!"Skipping {path.text}, already included"
  | .enteredOutline _ _ path depth => s!"Including outline {path.text} at depth {depth}"
  | .enteredFile _ _ path => s!"Including raw file {path.text}"
  | .switched source styles temporary =>
    let flag := if temporary then "True" else "False"
    s!"{source}: style switched to {styles.code} (temporary={flag})"
  | .restored styles => s!"Restoring style {styles.code}"
  | .evaluating lineCount => s!"Evaluating script block of {lineCount} lines"
  | .scriptFailed source fault => s!"Script block at {source} failed: {fault.message}"
  | .rendered path lineCount => s!"Rendered {path.text} into {lineCount} lines"
  | .started .. => "Converting outline"
  | .completed .. => "Conversion completed"
  | .failed .. => "Conversion failed"

/-- The named values that go with an event. A value that was not given has no text. -/
def details : Event → List (String × Option String)
  | .started input format => [("input", some input.text), ("format", format)]
  | .completed input output => [("input", some input.text), ("output", some output.text)]
  | .failed input message => [("input", some input.text), ("error", some message)]
  | _ => []

end Event

end OutlineTex
