/-
Nodes of an outline.

A node is a line of text together with the lines indented below it. Where an outline
skips a level of indentation, the level in between is held by a node without a value, a
placeholder, so that every node but a root has a parent one level up.

Two shapes of value matter to the layout. A value that begins with exactly one space
continues the line before it, and a first child that is nothing but a web address is no
line of its own but the link of its parent.
-/
import OutlineTex.Text.Blank

set_option autoImplicit false

namespace OutlineTex

open OutlineTex.Text

/-- A node: its value, which a placeholder lacks, the label of the line it comes from,
and the nodes below it. -/
structure Node where
  value : Option String := none
  source : String := ""
  children : List Node := []
deriving Repr, Inhabited, BEq

namespace Node

/-- A node that only bridges a skipped level. -/
def isPlaceholder (node : Node) : Bool :=
  node.value.isNone

/-- A node with nothing below it. -/
def isLeaf (node : Node) : Bool :=
  node.children.isEmpty

/-! ## Induction on forests -/

/-- A statement holds of every forest if it holds of the empty one, and of a node before its
siblings whenever it holds of what is below the node and of the siblings. -/
@[elab_as_elim]
theorem forest_induction {motive : List Node → Prop} (nil : motive [])
    (cons : ∀ value source children rest, motive children → motive rest →
      motive (⟨value, source, children⟩ :: rest)) : ∀ forest, motive forest
  | [] => nil
  | ⟨value, source, children⟩ :: rest =>
    cons value source children rest (forest_induction nil cons children)
      (forest_induction nil cons rest)

/-! ## The values below a node -/

mutual

/-- The values of a node and of everything below it, in document order. Placeholders
have none. -/
def values : Node → List String
  | ⟨value, _, children⟩ => value.toList ++ valuesOf children

/-- The values of a list of nodes and of everything below them, in document order. -/
def valuesOf : List Node → List String
  | [] => []
  | node :: rest => node.values ++ valuesOf rest

end

/-- The values of two lists of nodes stand one after the other. -/
theorem valuesOf_append (first second : List Node) :
    valuesOf (first ++ second) = valuesOf first ++ valuesOf second := by
  induction first with
  | nil => rfl
  | cons node rest ih => simp [valuesOf, ih]

/-- The values below a node, in document order. -/
def valuesBelow (node : Node) : List String :=
  valuesOf node.children

/-! ## Continuations and links -/

/-- A value that continues the line before it: one space, and then something that is
not blank. -/
def isContinuation (value : Option String) : Bool :=
  match value.map (·.toList) with
  | some (' ' :: c :: _) => !isBlank c
  | _ => false

/-- A word that fills a text, but for a line feed at its end. -/
def isWholeWord (s : List Char) : Bool :=
  let word := s.takeWhile (!isBlank ·)
  let rest := s.dropWhile (!isBlank ·)
  !word.isEmpty && (rest == [] || rest == ['\n'])

/-- The schemes of the addresses that are recognised. -/
def schemes : List (List Char) :=
  ["ftp://".toList, "http://".toList, "https://".toList]

/-- A value that is nothing but a web address. The scheme is in lower case. -/
def isAddress (value : String) : Bool :=
  schemes.any fun scheme =>
    scheme.isPrefixOf value.toList && isWholeWord (value.toList.drop scheme.length)

/-- The address that a list of children begins with, if its first node is a leaf and
nothing but an address. -/
def leadingAddress? : List Node → Option String
  | [] => none
  | first :: _ =>
    match first.value with
    | some value => if first.isLeaf && isAddress value then some value else none
    | none => none

/-- The address that is folded into a node's own line. -/
def link? (node : Node) : Option String :=
  leadingAddress? node.children

/-- The children that are rendered below a node: all but the folded address. -/
def subtree (node : Node) : List Node :=
  if node.link?.isSome then node.children.tail else node.children

end Node

end OutlineTex
