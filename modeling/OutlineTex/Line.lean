/-
What rendering writes, before it becomes text.

Every line knows what it is: the opening or the closing of a list, a line of the
outline with its wrapper, a comment, or something copied. Only the last step turns a
line into characters, so a statement about the lines of a level, or about what escaping
may change, is a statement about this type.

The lines are kept in blocks. What is rendered below a line, and what an included
outline contributes, is a block of its own within the lines of the level, so that a
level can be told from what lies below it. Read from the first to the last, the blocks
give the lines of the document.
-/
import OutlineTex.Escape
import OutlineTex.Path
import OutlineTex.Style

set_option autoImplicit false

namespace OutlineTex

/-! ## Lines -/

/-- A line of the outline as it is written: its text, with the state of math in which it
is escaped if it is escaped at all, the style around it, whether it continues the line
before it and whether the next one continues it, and the address it links to. -/
structure TextLine where
  depth : Nat
  style : Style
  continues : Bool := false
  continued : Bool := false
  address : Option String := none
  text : List Char
  escapedFrom : Option Bool := none
  source : String
deriving DecidableEq, Repr

/-- A line of the output. -/
inductive Line
  /-- A list begins, right before the line with the given label. -/
  | opening (depth : Nat) (style : Style) (environment : Environment) (source : String)
  /-- A list ends. -/
  | closing (depth : Nat) (style : Style) (environment : Environment)
  /-- A line of the outline. -/
  | content (line : TextLine)
  /-- An inclusion, repeated as a comment. -/
  | echo (depth : Nat) (value : String)
  /-- A comment; the text holds the comment sign. -/
  | comment (depth : Nat) (text : String)
  /-- A line copied from the outline or from a file. -/
  | copied (text : String)
  /-- A line that stands for a script. -/
  | script (text : String)
deriving DecidableEq, Repr

/-- So many tabs. -/
def tabs (depth : Nat) : String :=
  String.ofList (List.replicate depth '\t')

namespace TextLine

/-- The text of a line between its wrappers, escaped if it is to be. -/
def body (line : TextLine) : String :=
  String.ofList <| match line.escapedFrom with
    | some inMath => Escape.text inMath line.text
    | none => line.text

/-- An address as the argument of a link: the two signs that would end it early get a
backslash. -/
def linkTarget (address : String) : String :=
  String.ofList <| address.toList.flatMap fun c => if c == '%' || c == '#' then ['\\', c] else [c]

/-- The body, inside a link if there is an address. -/
def linked (line : TextLine) : String :=
  match line.address with
  | some address => s!"\\href\x7b{linkTarget address}\x7d\x7b{line.body}\x7d"
  | none => line.body

/-- What stands before the text: the style's wrapper, or its width in spaces on a line
that continues another. -/
def before (line : TextLine) : String :=
  if line.continues then String.ofList (List.replicate line.style.before.length ' ')
  else line.style.before

/-- What stands after the text: the style's wrapper, unless the next line continues this
one. -/
def after (line : TextLine) : String :=
  if line.continued then "" else line.style.after

/-- The line as it is written. -/
def written (line : TextLine) : String :=
  s!"{tabs line.depth}{line.before}{line.linked}{line.after} % {line.source}"

end TextLine

/-- The line as it is written. -/
def Line.written : Line → String
  | .opening depth _ environment source => s!"{tabs depth}{environment.opening} % {source}"
  | .closing depth _ environment => s!"{tabs depth}{environment.closing}"
  | .content line => line.written
  | .echo depth value => s!"{tabs depth}% {value}"
  | .comment depth text => s!"{tabs depth}{text}"
  | .copied text => text
  | .script text => text

/-! ## Blocks -/

/-- The output of a level: a line of its own, what is rendered below the line before, or
what an included outline contributes. -/
inductive Block
  | line (own : Line)
  | subtree (blocks : List Block)
  | outline (path : Path) (blocks : List Block)
deriving Repr

namespace Block

mutual

/-- The lines of a block, in document order. -/
def lines : Block → List Line
  | .line own => [own]
  | .subtree blocks => linesOf blocks
  | .outline _ blocks => linesOf blocks

/-- The lines of a list of blocks, in document order. -/
def linesOf : List Block → List Line
  | [] => []
  | block :: rest => block.lines ++ linesOf rest

end

/-- Blocks written one after the other give their lines one after the other. -/
theorem linesOf_append (first second : List Block) :
    linesOf (first ++ second) = linesOf first ++ linesOf second := by
  induction first with
  | nil => rfl
  | cons block rest ih => simp [linesOf, ih]

/-- The line that a block is, if it is one. -/
def ownLine? : Block → Option Line
  | .line own => some own
  | _ => none

/-- The lines of a level itself, without what lies below it or is included. -/
def ownLines (blocks : List Block) : List Line :=
  blocks.filterMap ownLine?

end Block

end OutlineTex
