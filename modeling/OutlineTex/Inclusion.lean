/-
The files that an outline names.

A name in a directive is meant as seen from the file that holds the directive, and the
label of the node tells which file that is. The references of an outline are all names
in all its inclusion directives, whether or not rendering ever reaches them, so they are
known without rendering anything.
-/
import OutlineTex.Directive
import OutlineTex.Node
import OutlineTex.Path

set_option autoImplicit false

namespace OutlineTex

/-! ## From labels to paths -/

/-- The directory of the file that a label points into. The name of the file is all
before the last colon; without one, or with nothing before it, it is the working
directory. -/
def sourceDirectory (source : String) : Path :=
  let name := (source.toList.reverse.dropWhile (· != ':')).tail.reverse
  (Path.ofText (String.ofList name)).parent

/-- The path that a name in a directive stands for. -/
def includedPath (source name : String) : Path :=
  (sourceDirectory source).join (Path.ofText name)

/-! ## References -/

/-- A name in an inclusion directive, the label of its node, and whether the file is to
be included only once. -/
structure Reference where
  source : String
  once : Bool
  name : String
deriving DecidableEq, Repr

/-- The path that a reference stands for. -/
def Reference.path (reference : Reference) : Path :=
  includedPath reference.source reference.name

namespace Node

/-- The references in a value. -/
def ownReferences (source : String) (value : Option String) : List Reference :=
  match value.bind Directive.ofValue? with
  | some (.inclusion once names) => names.map fun name => ⟨source, once, name⟩
  | _ => []

mutual

/-- The references in a node and in everything below it. -/
def references : Node → List Reference
  | ⟨value, source, children⟩ => ownReferences source value ++ referencesOf children

/-- The references in nodes and in everything below them. -/
def referencesOf : List Node → List Reference
  | [] => []
  | node :: rest => node.references ++ referencesOf rest

end

end Node

end OutlineTex
