/-
Scripts: blocks of lines that are run, and whose output takes their place.

An evaluator turns a block into lines or fails; failing never stops the rendering. The
evaluator that is used by default starts an interpreter for every block. What becomes of
a started process is not for this program to say, so it is a parameter: a function of
the processes started before and of the new one. An evaluator of another kind is a
function of the blocks evaluated before and of the new one, and may so remember
anything.

A process writes bytes, and both its channels are read as texts. Bytes that are no text,
and a script that no process can be given, are no faults of the script. They break the
evaluation off, and the rendering with it.
-/
import OutlineTex.Decimal.Layout
import OutlineTex.Text.Dedent
import OutlineTex.Text.NulChar
import OutlineTex.Text.Quoted
import OutlineTex.Text.Utf8

set_option autoImplicit false

namespace OutlineTex

open OutlineTex.Text OutlineTex.Decimal

/-! ## Processes -/

/-- A process to be started: the interpreter, the script in one text, and the seconds it
may take. -/
structure Launch where
  executable : String
  code : String
  timeout : Binary
deriving DecidableEq, Repr

/-- Whether a process can be started at all with what it is given. -/
def Launch.hasNul (launch : Launch) : Bool :=
  Text.hasNul launch.executable || Text.hasNul launch.code

/-- Why a process cannot be started: the number that the operating system gives the fault, the
fault in words, and whether it is about the interpreter, which is named then. -/
structure StartFault where
  code : Nat
  text : String
  named : Bool := true
deriving DecidableEq, Repr

namespace StartFault

/-- There is no such interpreter. -/
def missing : StartFault := { code := 2, text := "No such file or directory" }

/-- The interpreter may not be run. -/
def permissionDenied : StartFault := { code := 13, text := "Permission denied" }

/-- The interpreter is no program. -/
def badFormat : StartFault := { code := 8, text := "Exec format error" }

/-- A file stands where a directory of the interpreter should. -/
def notDirectory : StartFault := { code := 20, text := "Not a directory" }

/-- The fault of starting an interpreter in words. -/
def message (executable : String) (fault : StartFault) : String :=
  let about := if fault.named then s!": {quoted executable}" else ""
  s!"[Errno {fault.code}] {fault.text}{about}"

end StartFault

/-- What becomes of a process. One that has ended leaves the bytes that it wrote to its two
channels. -/
inductive Ending
  | notStarted (fault : StartFault)
  | timedOut
  | ended (status : Int) (output errors : List UInt8)
deriving DecidableEq, Repr

/-- The ending of a process that wrote texts. -/
def Ending.finished (status : Int) (output errors : String) : Ending :=
  .ended status (Utf8.encode output) (Utf8.encode errors)

/-- What becomes of a process, given those started before it. -/
abbrev ProcessWorld := List Launch → Launch → Ending

/-! ## Evaluators -/

/-- A block of script lines, and whether they are to be shown as well. -/
structure ScriptBlock where
  lines : List String
  verbose : Bool := false
deriving DecidableEq, Repr

/-- Why a block has no output. -/
inductive ScriptFault
  | disabled
  | timedOut (timeout : Binary)
  | notStarted (executable : String) (fault : StartFault)
  | exited (status : Int) (lastLine : Option String)
  | custom (message : String)
deriving DecidableEq, Repr

/-- The fault in words. -/
def ScriptFault.message : ScriptFault → String
  | .disabled => "Script evaluation is disabled"
  | .timedOut timeout => s!"Script timed out after {timeout.durationText}s"
  | .notStarted executable fault => s!"Cannot run {executable}: {fault.message executable}"
  | .exited status none => s!"exited with status {status}"
  | .exited status (some line) => s!"exited with status {status}: {line}"
  | .custom message => message

/-- Why the evaluation of a block is broken off. Nothing can stand for the block then. -/
inductive Breakdown
  /-- A NUL in the script or in the name of the interpreter. -/
  | nul
  /-- What the process wrote is no text. -/
  | undecodable (fault : Utf8.Fault)
deriving DecidableEq, Repr

/-- The reason in words. -/
def Breakdown.message : Breakdown → String
  | .nul => nulMessage
  | .undecodable fault => fault.message

/-- What evaluates the blocks of an outline. -/
inductive Evaluator
  /-- Every block fails. -/
  | disabled
  /-- Every block runs in a process of its own. -/
  | interpreter (executable : String) (timeout : Binary)
  /-- A block is answered in the light of those before it. -/
  | custom (answer : List ScriptBlock → ScriptBlock → Except ScriptFault (List String))

namespace ScriptBlock

/-- The script of a block in one text, without the indentation that its lines share. -/
def code (block : ScriptBlock) : String :=
  String.ofList (dedent (joinFeeds (block.lines.map (·.toList))))

/-- The process that runs a block. -/
def launch (block : ScriptBlock) (executable : String) (timeout : Binary) : Launch :=
  ⟨executable, block.code, timeout⟩

/-- The last line of what a process wrote about its errors. -/
def lastLine (errors : List Char) : Option String :=
  ((splitLines (trim errors)).getLast?).map String.ofList

/-- The output of a block whose process has come to an end. Both channels are read before the
status is looked at. A block that is to be shown comes first, each line as a comment. -/
def output (block : ScriptBlock) (launch : Launch) :
    Ending → Except Breakdown (Except ScriptFault (List String))
  | .notStarted fault => .ok (.error (.notStarted launch.executable fault))
  | .timedOut => .ok (.error (.timedOut launch.timeout))
  | .ended status output errors => do
    let output ← (Utf8.decode output).mapError .undecodable
    let errors ← (Utf8.decode errors).mapError .undecodable
    if status = 0 then
      let shown := if block.verbose then block.lines.map ("% " ++ ·) else []
      return .ok (shown ++ (splitLines output).map String.ofList)
    else return .error (.exited status (lastLine errors))

end ScriptBlock

end OutlineTex
