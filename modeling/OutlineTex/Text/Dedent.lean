/-
Taking the common indentation off a block of text.

Indentation is made of spaces and tabs, compared character by character: a tab and
eight spaces have nothing in common. Lines of nothing but spaces and tabs do not count
towards the common indentation and come out empty. Only the line feed ends a line.
-/
import OutlineTex.Text.Lines

set_option autoImplicit false

namespace OutlineTex.Text

/-- A character of indentation. -/
def isIndent (c : Char) : Bool :=
  c == ' ' || c == '\t'

/-- What two texts begin with alike. -/
def commonStart : List Char → List Char → List Char
  | c :: s, d :: t => if c == d then c :: commonStart s t else []
  | _, _ => []

/-- The longest indentation that all of the lines share, lines without content left
aside. -/
def commonIndent (lines : List (List Char)) : List Char :=
  let margins := (lines.filter (!·.all isIndent)).map (·.takeWhile isIndent)
  match margins with
  | [] => []
  | first :: rest => rest.foldl commonStart first

/-- The block without the indentation that its lines share. A line without content
becomes empty. -/
def dedent (block : List Char) : List Char :=
  let lines := splitFeeds block
  let margin := (commonIndent lines).length
  joinFeeds (lines.map fun line => if line.all isIndent then [] else line.drop margin)

end OutlineTex.Text
