/-
A file system without links, and what can go wrong when a file of it is opened.

It is a finite table of places, each a directory or a file with its bytes, together
with the working directory. A path is followed one component at a time, as an operating
system does it: a component has to exist, and everything before the last one has to be
a directory, so `missing/../a` fails although its location is that of `a`. Following a
path and resolving it agree wherever the following succeeds.

Names and paths have a greatest length, counted in bytes. A path that is too long is not
followed at all, and a name that is too long fails where it would be looked up, that is
in a directory that exists. Nor is a path followed that has a NUL in it.
-/
import OutlineTex.Path
import OutlineTex.Text.Lines
import OutlineTex.Text.Utf8

set_option autoImplicit false

namespace OutlineTex

open OutlineTex.Text

/-! ## Faults -/

/-- Why a file cannot be opened. -/
inductive OpenFault
  | missing
  | isDirectory
  | notDirectory
  | nameTooLong
  | nul
deriving DecidableEq, Repr

/-- Whether the fault is a NUL in the path, which no operating system has seen. -/
def OpenFault.isNul : OpenFault → Bool
  | .nul => true
  | _ => false

/-- The number that the operating system gives the fault, and the fault in words. -/
def OpenFault.report? : OpenFault → Option (Nat × String)
  | .missing => some (2, "No such file or directory")
  | .isDirectory => some (21, "Is a directory")
  | .notDirectory => some (20, "Not a directory")
  | .nameTooLong => some (36, "File name too long")
  | .nul => none

/-- Why a text file cannot be read: it cannot be opened, or it is no text. -/
inductive ReadFault
  | opening (path : Path) (fault : OpenFault)
  | decoding (fault : Utf8.Fault)
deriving DecidableEq, Repr

/-- The fault of opening a path in words. -/
def OpenFault.message (path : Path) (fault : OpenFault) : String :=
  match fault.report? with
  | some (code, text) => s!"[Errno {code}] {text}: {quoted path.text}"
  | none => nulMessage

/-- The fault in words. -/
def ReadFault.message : ReadFault → String
  | .opening path fault => fault.message path
  | .decoding fault => fault.message

/-! ## Files and directories -/

/-- What stands at a place. -/
inductive Entry
  | file (content : List UInt8)
  | directory
deriving DecidableEq, Repr

/-- The working directory and everything that exists below the root. -/
structure FileSystem where
  cwd : Location
  entries : List (Location × Entry)

namespace FileSystem

/-- What stands at a place; the root is always a directory. -/
def find? (fs : FileSystem) (place : Location) : Option Entry :=
  if place.isEmpty then some .directory else fs.entries.lookup place

/-- The table with one place set anew. -/
def setEntry (place : Location) (entry : Entry) :
    List (Location × Entry) → List (Location × Entry)
  | [] => [(place, entry)]
  | (other, old) :: rest =>
    if other == place then (place, entry) :: rest else (other, old) :: setEntry place entry rest

/-- The file system with one place set anew. -/
def put (fs : FileSystem) (place : Location) (entry : Entry) : FileSystem :=
  { fs with entries := setEntry place entry fs.entries }

/-- What stands at a place after one has been set. -/
theorem lookup_setEntry (place other : Location) (entry : Entry)
    (entries : List (Location × Entry)) :
    (setEntry place entry entries).lookup other =
      if other = place then some entry else entries.lookup other := by
  induction entries with
  | nil =>
    by_cases h : other = place
    · simp [setEntry, h]
    · have hne : (other == place) = false := by simpa using h
      simp [setEntry, List.lookup_cons, hne, h]
  | cons head rest ih =>
    obtain ⟨here, old⟩ := head
    by_cases hp : here = place
    · by_cases h : other = place
      · simp [setEntry, hp, h]
      · have hne : (other == place) = false := by simpa using h
        simp [setEntry, List.lookup_cons, hp, hne, h]
    · by_cases ho : other = here
      · simp [setEntry, ho, hp]
      · have hne : (other == here) = false := by simpa using ho
        simp [setEntry, List.lookup_cons, hp, hne, ih]

/-- Setting a place anew changes what stands there and nothing else. -/
theorem find?_put (fs : FileSystem) (place other : Location) (entry : Entry)
    (h : other ≠ []) :
    (fs.put place entry).find? other =
      if other = place then some entry else fs.find? other := by
  simp [find?, put, lookup_setEntry, h]

/-- The file system in which a place and all above it are directories. -/
def withDirectory (fs : FileSystem) (place : Location) : FileSystem :=
  (List.range place.length).foldl (fun fs n => fs.put (place.take (n + 1)) .directory) fs

/-- The file system with a file at a place, and directories above it. -/
def withFile (fs : FileSystem) (place : Location) (content : List UInt8) : FileSystem :=
  (fs.withDirectory place.dropLast).put place (.file content)

/-- A file system that holds nothing but its working directory. -/
def empty (cwd : Location) : FileSystem :=
  withDirectory ⟨cwd, []⟩ cwd

/-! ## Following a path -/

/-- The greatest number of bytes in a name. -/
def nameLimit : Nat := 255

/-- The greatest number of bytes in the text of a path. -/
def pathLimit : Nat := 4095

/-- The place reached from another by following components. -/
def follow (fs : FileSystem) (place : Location) : List String → Except OpenFault Location
  | [] => .ok place
  | part :: rest =>
    match fs.find? place with
    | none => .error .missing
    | some (.file _) => .error .notDirectory
    | some .directory =>
      let next := place.step part
      if nameLimit < part.utf8ByteSize then .error .nameTooLong
      else match fs.find? next with
        | none => .error .missing
        | some _ => follow fs next rest

/-- The place that a path leads to. -/
def locate (fs : FileSystem) (path : Path) : Except OpenFault Location :=
  if path.hasNul then .error .nul
  else if pathLimit < path.text.utf8ByteSize then .error .nameTooLong
  else fs.follow (path.start fs.cwd) path.parts

/-- The bytes of the file that a path leads to. -/
def read (fs : FileSystem) (path : Path) : Except OpenFault (List UInt8) :=
  match fs.locate path with
  | .error fault => .error fault
  | .ok place =>
    match fs.find? place with
    | some (.file content) => .ok content
    | some .directory => .error .isDirectory
    | none => .error .missing

/-- The lines of the text file that a path leads to. -/
def readLines (fs : FileSystem) (path : Path) : Except ReadFault (List (List Char)) :=
  match fs.read path with
  | .error fault => .error (.opening path fault)
  | .ok bytes =>
    match Utf8.decode bytes with
    | .error fault => .error (.decoding fault)
    | .ok text => .ok (splitLines text)

/-- The place at which writing to a path puts its file: one that is a file already, or a
new name in a directory that exists. -/
def target (fs : FileSystem) (path : Path) : Except OpenFault Location :=
  match fs.locate path with
  | .ok place => if fs.find? place = some .directory then .error .isDirectory else .ok place
  | .error .missing =>
    match fs.locate path.parent with
    | .ok directory => .ok (directory.step path.name)
    | .error fault => .error fault
  | .error fault => .error fault

/-- The file system after a file has been written. -/
def write (fs : FileSystem) (path : Path) (content : List UInt8) : Except OpenFault FileSystem :=
  match fs.target path with
  | .ok place => .ok (fs.put place (.file content))
  | .error fault => .error fault

/-! ## Comparing -/

/-- The files that are new or have other bytes than before. -/
def changes (before after : FileSystem) : List (Location × List UInt8) :=
  after.entries.filterMap fun (place, entry) =>
    match entry with
    | .directory => none
    | .file content =>
      if before.find? place = some (.file content) then none else some (place, content)

end FileSystem

end OutlineTex
