/-
The world around a run: the files, the processes, and what evaluates scripts.

Nothing of it changes while an outline is rendered. Reading a file is looking it up, and
a process ends as the world says, so a run is a function of its world.
-/
import OutlineTex.Outline
import OutlineTex.Rendering

set_option autoImplicit false

namespace OutlineTex

/-- What a run finds around it. The suffix tells outlines from raw files among the files
that are included. -/
structure World where
  files : FileSystem
  outlineSuffix : String := ".otl"
  evaluator : Evaluator := .disabled
  processes : ProcessWorld := fun _ _ => .finished 0 "" ""

namespace World

open Rendering

/-! ## Outlines -/

/-- The forest of an outline file. -/
def readOutline (world : World) (path : Path) : Except ReadFault (List Node) :=
  (world.files.readLines path).map (Outline.parse path.text)

/-- The greatest number of directories that a path can gain before it is too long. Each
of them takes a byte at least, and so does the slash behind it. -/
def directoryLimit : Nat :=
  FileSystem.pathLimit / 2 + 1

/-- The number of outlines that can be open within one another, if no plain include leads
back to the same path. From one of them to the next there are two kinds of steps that run
out: an include that may be taken only once, which each file is the target of at most
once, and one whose name has a directory, which makes the path longer. Between two such
steps no file comes twice. -/
def nestingBound (world : World) : Nat :=
  let count := world.files.entries.length
  (count + directoryLimit + 1) * (count + 1) + 1

/-! ## Scripts -/

/-- Evaluates a block: the lines that take its place, or why there are none. The block
counts among those that later blocks have before them. Where an interpreter is used, the
evaluation may be broken off. -/
def evaluate (world : World) (block : ScriptBlock) :
    Rendering (Except ScriptFault (List String)) := do
  let run ← look
  change fun run => { run with scripts := run.scripts ++ [block] }
  match world.evaluator with
  | .disabled => return .error .disabled
  | .custom answer => return answer run.scripts block
  | .interpreter executable timeout => do
    report (.evaluating block.lines.length)
    let launch := block.launch executable timeout
    if launch.hasNul then fail (.brokenDown .nul)
    else
      change fun run => { run with launches := run.launches ++ [launch] }
      ofExcept <|
        (block.output launch (world.processes run.launches launch)).mapError .brokenDown

end World

end OutlineTex
