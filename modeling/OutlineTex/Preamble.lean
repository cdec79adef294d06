/-
The preamble of a document, as its outline gives it.

Two directives speak of it. One names the document class, and the last one counts. The
other contributes its text and the values of its children, and nothing further below it
is looked at. They are found by a walk through the whole outline, which looks at nothing
but the values: it does not know what rendering will make of the nodes around them.
-/
import OutlineTex.Directive
import OutlineTex.Node

set_option autoImplicit false

namespace OutlineTex

open OutlineTex.Text

/-- What an outline says about the preamble: the arguments of the document class, if it
names one, and lines in document order. -/
structure Preamble where
  documentClass : Option String := none
  lines : List String := []
deriving DecidableEq, Repr, Inhabited

namespace Preamble

/-- Two parts of an outline, one after the other. The later document class counts. -/
def append (first second : Preamble) : Preamble :=
  ⟨second.documentClass.or first.documentClass, first.lines ++ second.lines⟩

/-- How the parts of an outline are grouped does not matter. -/
theorem append_assoc (first second third : Preamble) :
    append (append first second) third = append first (append second third) := by
  simp [append, Option.or_assoc]

/-- An outline that says nothing changes nothing. -/
theorem empty_append (preamble : Preamble) : append {} preamble = preamble := by
  simp [append]

/-- The document class that a value names. -/
def classOf? (value : String) : Option String :=
  (Directive.documentClass? value.toList).map fun arguments => String.ofList (trim arguments)

/-- The text that a value contributes; empty if the value only introduces its
children. -/
def textOf? (value : String) : Option String :=
  ((Directive.after? "preamble" value.toList).bind Directive.tail?).map String.ofList

/-- What a node contributes by its text and its children. -/
def ofPart (text : String) (children : List Node) : Preamble :=
  ⟨none, (if text.isEmpty then [] else [text]) ++ children.filterMap (·.value)⟩

mutual

/-- What a node and everything below it say about the preamble. -/
def ofNode : Node → Preamble
  | ⟨value, _, children⟩ =>
    match classOf? (value.getD "") with
    | some documentClass => append ⟨some documentClass, []⟩ (ofNodes children)
    | none =>
      match textOf? (value.getD "") with
      | some text => ofPart text children
      | none => ofNodes children

/-- What nodes and everything below them say about the preamble. -/
def ofNodes : List Node → Preamble
  | [] => {}
  | node :: rest => append (ofNode node) (ofNodes rest)

end

/-- Two lists of nodes say what each says, one after the other. -/
theorem ofNodes_append (first second : List Node) :
    ofNodes (first ++ second) = append (ofNodes first) (ofNodes second) := by
  induction first with
  | nil => simp [ofNodes, empty_append]
  | cons node rest ih => simp [ofNodes, ih, append_assoc]

end Preamble

end OutlineTex
