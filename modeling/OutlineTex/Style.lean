/-
Styles: how a line of a level is wrapped, and the list environment its lines share.

A style of a section has a level digit, because a code names only the family and its
letters are counted: the first `S` of a code is a section, the second a subsection, and
so on down to the fifth. The table below is complete, and what is not in it is no
style.
-/
import OutlineTex.Text.Blank

set_option autoImplicit false

namespace OutlineTex

open OutlineTex.Text

/-- The two lines around a list. Having both or neither is what keeps lists nested. -/
structure Environment where
  opening : String
  closing : String
deriving DecidableEq, Repr, Inhabited

/-- A style: its id, what stands before and after the text of a line, and the
environment around a run of such lines, if they are a list. -/
structure Style where
  id : String
  before : String := ""
  after : String := ""
  environment : Option Environment := none
deriving DecidableEq, Repr, Inhabited

namespace Style

/-! ## The table -/

/-- A list of items in an environment. -/
def list (id name : String) : Style :=
  { id, before := "\\item ",
    environment := some ⟨s!"\\begin\x7b{name}\x7d", s!"\\end\x7b{name}\x7d"⟩ }

/-- A heading: a command around the text. -/
def heading (id command : String) : Style :=
  { id, before := s!"\\{command}\x7b", after := "\x7d" }

/-- The headings of an article, outermost first. -/
def articleHeadings : List String :=
  ["section", "subsection", "subsubsection", "paragraph", "subparagraph"]

/-- The headings of a book, outermost first. -/
def bookHeadings : List String :=
  ["part", "chapter", "section", "subsection", "subsubsection"]

/-- The headings of a family, one style a level, counted from one. `star` marks the
commands without a number. -/
def family (letter : Char) (star : String) (commands : List String) : List Style :=
  (commands.zipIdx 1).map fun (command, level) => heading s!"{letter}{level}" (command ++ star)

/-- All styles. -/
def table : List Style :=
  [{ id := "N" }, { id := "P", after := "\\par" }, list "I" "itemize", list "E" "enumerate"]
    ++ family 'S' "" articleHeadings ++ family 's' "*" articleHeadings
    ++ family 'T' "" bookHeadings

/-- The style with an id. -/
def find? (id : String) : Option Style :=
  table.find? (·.id == id)

/-! ## Codes -/

/-- A letter whose styles are numbered by occurrence. -/
def isFamily (letter : Char) : Bool :=
  letter == 'S' || letter == 's' || letter == 'T'

/-- The ids that a code spells, `before` being the letters read already. Blanks do not
count, and the letters of a family are numbered as they occur. -/
def idsFrom (before : List Char) : List Char → List String
  | [] => []
  | letter :: rest =>
    if isBlank letter then idsFrom before rest
    else
      let id :=
        if isFamily letter then s!"{letter}{before.count letter + 1}"
        else String.singleton letter
      id :: idsFrom (letter :: before) rest

/-- The ids that a code spells. -/
def ids (code : String) : List String :=
  idsFrom [] code.toList

end Style

end OutlineTex
