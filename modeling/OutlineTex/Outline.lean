/-
Outlines: lines of text whose nesting is given by leading tabs.

The forest is grown line by line. A line with `t` tabs belongs `t` levels down along the
last branch of what has been read so far, so it is added by walking from the last root
to its last child and so on, `t` times, and appending there. Where the walk finds no
child to step to, the outline has skipped a level, and a placeholder with the label of
the new line is put in. Blank lines add nothing, but they are counted: a label is the
number of its line in the list that was given.
-/
import OutlineTex.Node

set_option autoImplicit false

namespace OutlineTex.Outline

open OutlineTex.Text

/-! ## One line -/

/-- The number of tabs that a line begins with. -/
def depth (line : List Char) : Nat :=
  (line.takeWhile (· == '\t')).length

/-- The text of a line: every tab in it is dropped, wherever it stands. -/
def content (line : List Char) : List Char :=
  line.filter (· != '\t')

/-- The label of a line: the name of its source and its number. -/
def label (source : String) (number : Nat) : String :=
  s!"{source}:{number}"

/-! ## Growing the forest -/

/-- The forest with a node added `depth` levels down its last branch. Levels that do not
exist yet are bridged by placeholders with the node's own label. -/
def graft (node : Node) : Nat → List Node → List Node
  | 0, forest => forest ++ [node]
  | depth + 1, forest =>
    match forest.getLast? with
    | none => [{ source := node.source, children := graft node depth [] }]
    | some last => forest.dropLast ++ [{ last with children := graft node depth last.children }]

/-- The forest with a line added. Blanks at the end of the line do not count, and a line
of blanks adds nothing. -/
def addLine (source : String) (forest : List Node) (line : List Char) (number : Nat) :
    List Node :=
  match trimEnd line with
  | [] => forest
  | line =>
    graft { value := some (String.ofList (content line)), source := label source number }
      (depth line) forest

/-- The forest of the lines, counted from one. -/
def parse (source : String) (lines : List (List Char)) : List Node :=
  (lines.zipIdx 1).foldl (fun forest (line, number) => addLine source forest line number) []

end OutlineTex.Outline
