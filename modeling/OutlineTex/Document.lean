/-
The document around a rendered outline.

A banner names the outline, the document class and two packages follow, then the
preamble of the outline, and the body stands between the two lines of the document
environment. Every part is one or more lines, and the document ends with a line feed.
-/
import OutlineTex.Preamble

set_option autoImplicit false

namespace OutlineTex.Document

/-- The packages that every document uses. -/
def packages : List String :=
  ["\\usepackage[utf8]\x7binputenc\x7d", "\\usepackage\x7bhyperref\x7d"]

/-- The arguments of the document class: those of the outline, or the default if it
names none or leaves them empty. -/
def classArguments (default : String) (documentClass : Option String) : String :=
  match documentClass with
  | some arguments => if arguments.isEmpty then default else arguments
  | none => default

/-- The lines of a document, its body being one of them. -/
def lines (default name body : String) (preamble : Preamble) : List String :=
  [s!"% Autogenerated by otl2latex from {name}.",
    "% Do not edit: changes are overwritten on the next conversion.",
    s!"\\documentclass{classArguments default preamble.documentClass}"]
    ++ packages ++ preamble.lines
    ++ ["\\begin\x7bdocument\x7d", body, "\\end\x7bdocument\x7d"]

/-- The document of a body, for the outline with the given file name. -/
def text (default name body : String) (preamble : Preamble) : String :=
  "\n".intercalate (lines default name body preamble) ++ "\n"

end OutlineTex.Document
