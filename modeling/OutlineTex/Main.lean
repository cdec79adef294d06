/-
The command line of the program, around the library.

The library runs on a table of files, so this module first fills the table with what a
run may look at: the outline, all files that it or an included outline names, and the
place of the output. Each path is tried component by component, which tells files,
directories and missing names apart. Then the run is a function, and what it changed in
the table is written back.

No process is ever started from here. A script is answered as if its interpreter were
missing, and the document shows that at its place.
-/
import OutlineTex.Program

set_option autoImplicit false

namespace OutlineTex.Main

open OutlineTex.CommandLine

/-- What stands at a place of the real file system. -/
def probe (place : Location) : IO (Option Entry) := do
  try
    let bytes ← IO.FS.readBinFile (Path.text ⟨.single, place⟩)
    return some (.file bytes.toList)
  catch
    | .inappropriateType .. => return some .directory
    | _ => return none

/-- The table with what a path touches: every place that its components lead to. -/
def loadPath (files : FileSystem) (path : Path) : IO FileSystem := do
  let mut files := files
  let mut place := path.start files.cwd
  for part in path.parts do
    place := place.step part
    if (files.find? place).isNone then
      match ← probe place with
      | some entry => files := files.put place entry
      | none => break
  return files

/-- The table with all that outlines name, from the given ones on. A place is read as an
outline once. -/
partial def loadOutlines (suffix : String) (seen : List Location) (files : FileSystem) :
    List Path → IO FileSystem
  | [] => return files
  | path :: rest => do
    let files ← loadPath files path
    let place := path.resolve files.cwd
    if seen.contains place then loadOutlines suffix seen files rest
    else
      let world : World := { files, outlineSuffix := suffix }
      let references := (world.readOutline path).toOption.elim [] Node.referencesOf
      let (outlines, others) := references.partition (world.isOutlineName ·.name)
      let files ← others.foldlM (fun files reference => loadPath files reference.path) files
      loadOutlines suffix (place :: seen) files (rest ++ outlines.map (·.path))

/-- The table with all that a command line may look at. -/
def loadFiles (settings : Settings) (files : FileSystem) (words : List String) :
    IO FileSystem := do
  match Arguments.ofWords settings.styleCode settings.logLevel words with
  | .error _ => return files
  | .ok arguments =>
    let files ← loadOutlines settings.outlineSuffix [] files [arguments.input]
    match Conversion.outputPath settings.outputSuffix arguments.input arguments.output with
    | .error _ => return files
    | .ok path => loadPath files path

/-- Runs the program and says how it ended. -/
def run (words : List String) : IO UInt32 := do
  let stderr ← IO.getStderr
  let values ← Settings.variableNames.mapM fun name => do return (name, ← IO.getEnv name)
  match Settings.ofEnvironment fun name => (values.lookup name).join with
  | .error fault =>
    stderr.putStrLn fault.message
    return 1
  | .ok settings =>
    let cwd := (Path.ofText (← IO.currentDir).toString).parts
    let files ← loadFiles settings (FileSystem.empty cwd) words
    let execution := Program.run settings files (fun _ _ => .notStarted .missing) words
    for event in execution.events do
      stderr.putStrLn s!"{event.severity.name} {event.reporter}: {event.message}"
    match execution.result with
    | .error fault =>
      stderr.putStrLn fault.message
      return 1
    | .ok exit =>
      for (place, bytes) in files.changes exit.files do
        IO.FS.writeBinFile (Path.text ⟨.single, place⟩) ⟨bytes.toArray⟩
      (← IO.getStdout).putStr exit.stdout
      stderr.putStr exit.stderr
      return exit.status.toUInt32

end OutlineTex.Main

/-- Runs the program on the words of the command line. -/
def main (words : List String) : IO UInt32 :=
  OutlineTex.Main.run words
