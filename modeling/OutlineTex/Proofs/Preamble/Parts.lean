/-
The parts of an outline that speak of the preamble.

The preamble is gathered by a walk through the outline, and this file names the nodes that the
walk takes something from: its parts. What is gathered is what the parts say, one after the other,
except that of several document classes the last one counts.

The walk tells a part by what it contributes, and rendering tells one by the form of a directive.
The forms differ, because a text behind the name of the preamble may not run over a line feed, and
rendering looks at the name and one blank only. But the values of an outline that was read have no
line feeds, and without them the two come to the same.
-/
import OutlineTex.Proofs.Directive.Forms
import OutlineTex.Proofs.Outline.Preorder
import OutlineTex.Proofs.Rendering.Steps
import OutlineTex.Preamble

set_option autoImplicit false

namespace OutlineTex

open OutlineTex.Text

namespace Preamble

/-! ## Parts -/

/-- Whether a node is a part: it names a document class, or it contributes a text. -/
def isPart (node : Node) : Bool :=
  let value := node.value.getD ""
  (classOf? value).isSome || (textOf? value).isSome

/-- Whether the children of a node belong to it as a part, so that they are no parts themselves. -/
def takesChildren (node : Node) : Bool :=
  let value := node.value.getD ""
  (classOf? value).isNone && (textOf? value).isSome

mutual

/-- The parts in a node, itself the first if it is one. -/
def partsAt : Node → List Node
  | ⟨value, source, children⟩ =>
    let node : Node := ⟨value, source, children⟩
    (if isPart node then [node] else []) ++ if takesChildren node then [] else partsOf children

/-- The parts in nodes, in document order. -/
def partsOf : List Node → List Node
  | [] => []
  | node :: rest => partsAt node ++ partsOf rest

end

/-- What a part says by itself. -/
def saidBy (part : Node) : Preamble :=
  match classOf? (part.value.getD ""), textOf? (part.value.getD "") with
  | some documentClass, _ => ⟨some documentClass, []⟩
  | none, some text => ofPart text part.children
  | none, none => {}

/-- What parts say, one after the other. -/
def gather (parts : List Node) : Preamble :=
  parts.foldr (fun part said => append (saidBy part) said) {}

/-- The lines of all parts are kept. -/
theorem lines_gather (parts : List Node) :
    (gather parts).lines = parts.flatMap fun part => (saidBy part).lines := by
  induction parts with
  | nil => rfl
  | cons part rest ih =>
    rw [List.flatMap_cons, ← ih]
    rfl

/-- The last document class counts. -/
theorem documentClass_gather (parts : List Node) :
    (gather parts).documentClass =
      (parts.filterMap fun part => (saidBy part).documentClass).getLast? := by
  induction parts with
  | nil => rfl
  | cons part rest ih =>
    have hgather : (gather (part :: rest)).documentClass =
        (gather rest).documentClass.or (saidBy part).documentClass := rfl
    rw [hgather, ih, List.filterMap_cons]
    cases (saidBy part).documentClass with
    | none => exact Option.or_none
    | some arguments =>
      rw [List.getLast?_cons]
      cases (rest.filterMap fun part => (saidBy part).documentClass).getLast? <;> rfl

theorem gather_append (first second : List Node) :
    gather (first ++ second) = append (gather first) (gather second) := by
  induction first with
  | nil => exact (empty_append _).symm
  | cons part rest ih =>
    have hgather (parts : List Node) :
        gather (part :: parts) = append (saidBy part) (gather parts) := rfl
    rw [List.cons_append, hgather, hgather, ih, append_assoc]

/-- The preamble of an outline is what its parts say. -/
theorem ofNodes_eq_gather (nodes : List Node) : ofNodes nodes = gather (partsOf nodes) := by
  induction nodes using Node.forest_induction with
  | nil => rfl
  | cons value source children rest ihchildren ihrest =>
    rw [ofNodes, partsOf, gather_append, ihrest, ofNode, partsAt]
    congr 1
    rcases Option.eq_none_or_eq_some (classOf? (value.getD "")) with hclass | ⟨arguments, hclass⟩
    · rcases Option.eq_none_or_eq_some (textOf? (value.getD "")) with htext | ⟨text, htext⟩
      · simpa [isPart, takesChildren, hclass, htext, gather] using ihchildren
      · simp [isPart, takesChildren, gather, saidBy, hclass, htext, append, ofPart]
    · rw [ihchildren]
      simp [isPart, takesChildren, gather, saidBy, hclass]

/-! ## Parts and directives -/

/-- Among values without line feeds, the parts are what rendering recognises as such. -/
theorem isPart_iff {node : Node} (h : ∀ value ∈ node.value, '\n' ∉ value.toList) :
    isPart node = true ↔ node.value.bind Directive.ofValue? = some .preamble := by
  obtain ⟨value, source, children⟩ := node
  cases value with
  | none => simp [isPart, classOf?, textOf?, Directive.documentClass?, Directive.after?]
  | some value =>
    have hvalue : '\n' ∉ value.toList := h value rfl
    rw [Option.bind_some, Directive.ofValue?_eq_preamble_iff hvalue]
    simp only [isPart, classOf?, textOf?, Option.getD_some, Bool.or_eq_true, Option.isSome_map]

/-- A web address says nothing about the preamble. -/
theorem isPart_of_isAddress {value : String} (h : Node.isAddress value = true) :
    classOf? value = none ∧ textOf? value = none := by
  have hname (name : String) : Directive.after? name value.toList = none := by
    unfold Directive.after?
    split
    · next rest hvalue =>
      rw [Node.isAddress, hvalue] at h
      exact absurd h (by simp [Node.schemes])
    · rfl
  simp [classOf?, textOf?, Directive.documentClass?, hname]

/-- The parts below a node stand in what is rendered there, because an address that is folded is
none. -/
theorem partsOf_subtree (node : Node) : partsOf node.subtree = partsOf node.children := by
  cases hlink : node.link? with
  | none => rw [Node.subtree, hlink]; rfl
  | some address =>
    obtain ⟨haddress, source, hchildren⟩ := Node.children_of_link? hlink
    obtain ⟨hclass, htext⟩ := isPart_of_isAddress haddress
    rw [hchildren, partsOf, partsAt]
    simp [isPart, takesChildren, hclass, htext, partsOf]

end Preamble

end OutlineTex
