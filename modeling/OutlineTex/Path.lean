/-
Paths, as names and as places.

A path is a name: a root or none, and components. Reading a path from its text drops
repeated slashes, components `.` and a slash at the end, and keeps `..`, because what
`..` means depends on the directories that exist. Joining, the parent and the change of
suffix are operations on the name alone.

A change of suffix may leave a name that is a dot alone. It stays in the path and in its
text, and leads nowhere.

A location is a place: the components from the root of the file system, without dots.
Resolving a path against a working directory collapses `..` and forgets the spelling, so
two paths to one place have one location. That is what the register of included files
compares.
-/
import OutlineTex.Text.NulChar
import OutlineTex.Text.Quoted

set_option autoImplicit false

namespace OutlineTex

open OutlineTex.Text

/-! ## Paths -/

/-- Where a path starts: at the working directory, at the root, or at the root written
with two slashes, which is kept apart in the text. -/
inductive Root
  | relative
  | single
  | double
deriving DecidableEq, Repr, Inhabited

/-- A path: where it starts and its components. -/
structure Path where
  root : Root := .relative
  parts : List String := []
deriving DecidableEq, Repr, Inhabited

namespace Path

/-- The stretches of a text between slashes. -/
def splitSlashes : List Char → List (List Char)
  | [] => [[]]
  | c :: rest =>
    if c == '/' then [] :: splitSlashes rest
    else match splitSlashes rest with
      | [] => [[c]]
      | part :: parts => (c :: part) :: parts

/-- A component that is no step: nothing at all, or a single dot. -/
def isIdle (part : List Char) : Bool :=
  part == [] || part == ['.']

/-- The root that a text begins with. Two slashes are a root of their own; three or more
are one. -/
def rootOf : List Char → Root
  | '/' :: '/' :: '/' :: _ => .single
  | '/' :: '/' :: _ => .double
  | '/' :: _ => .single
  | _ => .relative

/-- The path that a text names. -/
def ofText (s : String) : Path :=
  ⟨rootOf s.toList, ((splitSlashes s.toList).filter (!isIdle ·)).map String.ofList⟩

/-- The text of a root. -/
def rootText : Root → String
  | .relative => ""
  | .single => "/"
  | .double => "//"

/-- The text of a path. The path without root and components is the dot. -/
def text (p : Path) : String :=
  match p.root, p.parts with
  | .relative, [] => "."
  | root, parts => rootText root ++ "/".intercalate parts

/-- A path that starts at the root. -/
def isAbsolute (p : Path) : Bool :=
  p.root != .relative

/-- The second path as seen from the first; one that starts at the root stands for
itself. -/
def join (p q : Path) : Path :=
  if q.isAbsolute then q else { p with parts := p.parts ++ q.parts }

/-- Whether a component of the path has a NUL in it, so that there can be no such file. -/
def hasNul (p : Path) : Bool :=
  p.parts.any Text.hasNul

/-- The path without its last component. -/
def parent (p : Path) : Path :=
  { p with parts := p.parts.dropLast }

/-- The last component, empty if there is none. -/
def name (p : Path) : String :=
  p.parts.getLast?.getD ""

/-! ## Suffixes -/

/-- Why a path cannot take a suffix. -/
inductive SuffixFault
  | invalidSuffix (suffix : String)
  | emptyName (path : Path)
deriving DecidableEq, Repr

/-- The fault in words. -/
def SuffixFault.message : SuffixFault → String
  | .invalidSuffix suffix => s!"Invalid suffix {quoted suffix}"
  | .emptyName path => s!"PosixPath({quoted path.text}) has an empty name"

/-- A suffix is empty, or a dot and at least one more character, none of them a slash. -/
def isSuffix (suffix : List Char) : Bool :=
  !suffix.contains '/' && (suffix == [] || (suffix.head? == some '.' && suffix != ['.']))

/-- A name without its suffix, which runs from the last dot on. A dot at either end of
the name begins no suffix. -/
def stem (name : List Char) : List Char :=
  let suffix := (name.reverse.takeWhile (· != '.')).reverse
  let before := name.take (name.length - suffix.length - 1)
  if !name.contains '.' || suffix == [] || before == [] then name else before

/-- The path with its suffix replaced. -/
def withSuffix (p : Path) (suffix : String) : Except SuffixFault Path :=
  if !isSuffix suffix.toList then .error (.invalidSuffix suffix)
  else if p.name == "" then .error (.emptyName p)
  else .ok { p with
    parts := p.parts.dropLast ++ [String.ofList (stem p.name.toList ++ suffix.toList)] }

end Path

/-! ## Locations -/

/-- A place in the file system: the components from the root. -/
abbrev Location := List String

namespace Location

/-- One step from a place: up for `..`, which stays at the root, none for a single dot,
and down otherwise. -/
def step (place : Location) (part : String) : Location :=
  if part == ".." then place.dropLast else if part == "." then place else place ++ [part]

/-- What two places begin with alike is dropped from both. -/
def dropShared : Location → Location → Location × Location
  | a :: as, b :: bs => if a == b then dropShared as bs else (a :: as, b :: bs)
  | as, bs => (as, bs)

/-- The text of a place as seen from a directory. -/
def textFrom (directory place : Location) : String :=
  let (up, down) := dropShared directory place
  match up.map (fun _ => "..") ++ down with
  | [] => "."
  | parts => "/".intercalate parts

end Location

/-- The place where a path starts. -/
def Path.start (cwd : Location) (p : Path) : Location :=
  if p.isAbsolute then [] else cwd

/-- The place that a path names when every `..` undoes the component before it. -/
def Path.resolve (cwd : Location) (p : Path) : Location :=
  p.parts.foldl Location.step (p.start cwd)

end OutlineTex
