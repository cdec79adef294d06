/-
What can go wrong while an outline is rendered.

A failure is kept as its cause, and its words are in one place. There are four kinds that
the program expects: styles, the shape of the outline, files that are included, and the
outline file itself. An evaluation that is broken off is a fifth kind, and it is expected
only where a process wrote what is no text. A NUL in a script or in the name of a file is
expected nowhere.

The last constructor is of another nature. Includes are followed to a depth that no
outline reaches whose plain includes form no cycle, and it stands for an outline that
goes beyond.
-/
import OutlineTex.FileSystem
import OutlineTex.Script

set_option autoImplicit false

namespace OutlineTex

open OutlineTex.Text

/-- Why an outline cannot be rendered. -/
inductive Failure
  /-- A code names a style that does not exist. -/
  | unknownStyle (id : String)
  /-- A line is to be written and no style is configured. -/
  | noStyle
  /-- A placeholder stands where a line is needed. -/
  | skippedLevel (source : String) (depth : Nat)
  /-- An outline that a directive includes cannot be read. -/
  | includedOutline (path : Path) (cause : ReadFault)
  /-- A raw file that the directive at `source` includes cannot be read. -/
  | includedFile (source : String) (path : Path) (cause : ReadFault)
  /-- The outline itself cannot be read. -/
  | unreadable (cause : ReadFault)
  /-- The name of a file that a directive includes has a NUL. -/
  | unresolvable (path : Path)
  /-- The evaluation of a script was broken off. -/
  | brokenDown (cause : Breakdown)
  /-- The includes go deeper than they can without a cycle. -/
  | endlessInclusion (path : Path)
deriving DecidableEq, Repr

/-- The failure in words. -/
def Failure.message : Failure → String
  | .unknownStyle id => s!"Unknown style id {quoted id}"
  | .noStyle => "No style configured"
  | .skippedLevel source depth =>
    s!"{source}: no content at depth {depth}; the outline skips an indentation level"
  | .includedOutline path cause => s!"Cannot include {path.text}: {cause.message}"
  | .includedFile source path cause => s!"{source}: cannot include {path.text}: {cause.message}"
  | .unreadable cause => cause.message
  | .unresolvable _ => nulMessage
  | .brokenDown cause => cause.message
  | .endlessInclusion path => s!"{path.text}: the includes of this outline never end"

/-- Whether the failure is a NUL in the name of a file or in a script. -/
def Failure.isNul : Failure → Bool
  | .unreadable (.opening _ fault) => fault.isNul
  | .unresolvable _ => true
  | .brokenDown .nul => true
  | _ => false

end OutlineTex
