/-
The walk that gathers the preamble.

The walk goes through the outline in document order and leaves out what is below a node that
contributes a text, at whatever depth, because the children of such a node belong to it. The nodes
it visits are therefore those with no such node above them. What is gathered is a fold over them:
each adds what it says by itself, a document class in the place of an earlier one, or lines behind
those before. Nodes that say nothing, placeholders among them, are passed through, and so are nodes
that name a document class.

The visited nodes are cut out of the whole list of nodes here, each with the nodes above it, and not
by another walk. That the walk never has to look up is what the induction shows.
-/
import OutlineTex.Proofs.Outline.Blocks
import OutlineTex.Proofs.Preamble.Parts

set_option autoImplicit false

namespace OutlineTex

open OutlineTex.Text

/-! ## Nodes with what is above them -/

/-- A node with the nodes above it, the outermost first. -/
structure Situated where
  above : List Node
  node : Node

mutual

/-- A node below the given ones, and all nodes below it, in document order. -/
def situatedAt (above : List Node) : Node → List Situated
  | ⟨value, source, children⟩ =>
    ⟨above, ⟨value, source, children⟩⟩ ::
      situatedOf (above ++ [⟨value, source, children⟩]) children

/-- Nodes below the given ones, and all nodes below them, in document order. -/
def situatedOf (above : List Node) : List Node → List Situated
  | [] => []
  | node :: rest => situatedAt above node ++ situatedOf above rest

end

/-- What is above a list of nodes is above every node in it and below. -/
theorem subset_above_of_mem_situatedOf {above nodes : List Node} {situated : Situated}
    (h : situated ∈ situatedOf above nodes) : above ⊆ situated.above := by
  induction nodes using Node.forest_induction generalizing above with
  | nil => exact absurd h List.not_mem_nil
  | cons value source children rest ihchildren ihrest =>
    rw [situatedOf, situatedAt, List.cons_append] at h
    rcases List.mem_cons.mp h with rfl | h
    · exact List.Subset.refl _
    · rcases List.mem_append.mp h with h | h
      · exact List.Subset.trans (List.subset_append_left _ _) (ihchildren h)
      · exact ihrest h

/-- Nodes with what is above them are the nodes in document order. -/
theorem map_node_situatedOf (above nodes : List Node) (level : Nat) :
    (situatedOf above nodes).map Situated.node =
      (Outline.placedOf level nodes).map Outline.Placed.node := by
  induction nodes using Node.forest_induction generalizing above level with
  | nil => rfl
  | cons value source children rest ihchildren ihrest =>
    rw [situatedOf, situatedAt, Outline.placedOf, Outline.placedAt, List.map_append,
      List.map_append, List.map_cons, List.map_cons, ihchildren, ihrest]

namespace Preamble

/-! ## Visited nodes -/

/-- Whether a node contributes a text to the preamble, be it an empty one. -/
def contributes (node : Node) : Bool :=
  (textOf? (node.value.getD "")).isSome

/-- Whether no node above contributes a text. -/
def isReached (situated : Situated) : Bool :=
  situated.above.all (!contributes ·)

/-- The nodes that the walk through an outline visits: those in document order that are below no
node that contributes a text. -/
def visited (nodes : List Node) : List Node :=
  ((situatedOf [] nodes).filter isReached).map (·.node)

/-- A value that names a document class contributes no text. -/
theorem textOf?_of_classOf? {value documentClass : String}
    (h : classOf? value = some documentClass) : textOf? value = none := by
  obtain ⟨arguments, harguments, -⟩ := Option.map_eq_some_iff.mp h
  obtain ⟨rest, hrest, -⟩ := Option.bind_eq_some_iff.mp harguments
  rw [textOf?, Directive.after?_eq_none hrest (by decide) (by decide)]
  rfl

theorem takesChildren_eq (node : Node) : takesChildren node = contributes node := by
  simp only [takesChildren, contributes]
  cases hclass : classOf? (node.value.getD "") with
  | none => exact Bool.true_and _
  | some documentClass =>
    rw [textOf?_of_classOf? hclass]
    rfl

/-- Below a node that contributes a text nothing is visited. -/
theorem filter_isReached_eq_nil {above nodes : List Node} (h : above.any contributes = true) :
    (situatedOf above nodes).filter isReached = [] := by
  obtain ⟨node, hnode, hcontributes⟩ := List.any_eq_true.mp h
  refine List.filter_eq_nil_iff.mpr fun situated hsituated hreached => ?_
  have hnone := List.all_eq_true.mp hreached node (subset_above_of_mem_situatedOf hsituated hnode)
  rw [hcontributes] at hnone
  exact Bool.noConfusion hnone

/-- The parts of an outline are visited, and so is nothing else that says anything. -/
theorem partsOf_eq_visited {above : List Node} (habove : above.any contributes = false)
    (nodes : List Node) :
    partsOf nodes = (((situatedOf above nodes).filter isReached).map (·.node)).filter isPart := by
  induction nodes using Node.forest_induction generalizing above with
  | nil => rfl
  | cons value source children rest ihchildren ihrest =>
    let node : Node := ⟨value, source, children⟩
    have hreached : isReached ⟨above, node⟩ = true := by
      rw [isReached, List.all_eq_not_any_not]
      simpa using habove
    rw [partsOf, partsAt, situatedOf, situatedAt, ihrest habove, takesChildren_eq,
      List.filter_append, List.filter_cons_of_pos hreached, List.map_append, List.map_cons,
      List.filter_append]
    congr 1
    rw [List.filter_cons]
    -- below the node the walk goes on just if the node contributes no text
    cases hcontributes : contributes node with
    | false =>
      have hbelow : (above ++ [node]).any contributes = false := by
        rw [List.any_append, habove, List.any_cons, hcontributes]
        rfl
      rw [if_neg Bool.false_ne_true, ihchildren hbelow]
      split <;> rfl
    | true =>
      have hbelow : (above ++ [node]).any contributes = true := by
        rw [List.any_append, List.any_cons, hcontributes]
        simp
      rw [if_pos rfl, filter_isReached_eq_nil hbelow, List.append_nil]
      split <;> rfl

/-! ## Folding -/

theorem saidBy_of_not_isPart {node : Node} (h : isPart node = false) : saidBy node = {} := by
  obtain ⟨hclass, htext⟩ := Bool.or_eq_false_iff.mp h
  rw [Option.isSome_eq_false_iff, Option.isNone_iff_eq_none] at hclass htext
  rw [saidBy, hclass, htext]

/-- Nodes that say nothing can be left out. -/
theorem gather_filter_isPart (nodes : List Node) : gather (nodes.filter isPart) = gather nodes := by
  induction nodes with
  | nil => rfl
  | cons node rest ih =>
    have hgather (parts : List Node) :
        gather (node :: parts) = append (saidBy node) (gather parts) := rfl
    cases hpart : isPart node with
    | true => rw [List.filter_cons_of_pos hpart, hgather, hgather, ih]
    | false =>
      rw [List.filter_cons_of_neg (by simp [hpart]), hgather, saidBy_of_not_isPart hpart,
        empty_append, ih]

theorem ofNodes_eq_gather_visited (nodes : List Node) : ofNodes nodes = gather (visited nodes) := by
  have hnone : ([] : List Node).any contributes = false := rfl
  rw [ofNodes_eq_gather, partsOf_eq_visited hnone, gather_filter_isPart]
  rfl

/-- Gathering may begin with the first node as well as with the last one. -/
theorem foldl_append_saidBy (nodes : List Node) (said : Preamble) :
    nodes.foldl (fun said node => append said (saidBy node)) said =
      append said (gather nodes) := by
  induction nodes generalizing said with
  | nil => simp [gather, append]
  | cons node rest ih =>
    rw [List.foldl_cons, ih, append_assoc]
    rfl

/-- The document class that a node names. -/
def namedClass? (node : Node) : Option String :=
  classOf? (node.value.getD "")

/-- The lines that a node contributes: its text, if that is not empty, and the values of its
children. -/
def contribution (node : Node) : List String :=
  match textOf? (node.value.getD "") with
  | some text => (if text.isEmpty then [] else [text]) ++ node.children.filterMap (·.value)
  | none => []

theorem saidBy_eq (node : Node) : saidBy node = ⟨namedClass? node, contribution node⟩ := by
  unfold saidBy namedClass? contribution
  cases hclass : classOf? (node.value.getD "") with
  | some documentClass => rw [textOf?_of_classOf? hclass]
  | none => cases textOf? (node.value.getD "") <;> rfl

/-- **The preamble is a fold in document order.** What an outline says about the preamble is what
the visited nodes say, one after the other. Its document class is the one that the last of them
names, be it an empty one, if any does, and its lines are those that they contribute. So what two
outlines say, one behind the other, is what the second says behind what the first says. -/
theorem ofNodes_eq_foldl_visited (nodes : List Node) :
    (situatedOf [] nodes).map (·.node) = (Outline.placedOf 0 nodes).map (·.node) ∧
      ofNodes nodes = (visited nodes).foldl (fun said node => append said (saidBy node)) {} ∧
      (ofNodes nodes).documentClass = ((visited nodes).filterMap namedClass?).getLast? ∧
      (ofNodes nodes).lines = (visited nodes).flatMap contribution ∧
      ∀ behind, ofNodes (nodes ++ behind) =
        ⟨(ofNodes behind).documentClass.or (ofNodes nodes).documentClass,
          (ofNodes nodes).lines ++ (ofNodes behind).lines⟩ := by
  refine ⟨map_node_situatedOf [] nodes 0, ?_, ?_, ?_, ofNodes_append nodes⟩
  · rw [foldl_append_saidBy, empty_append, ofNodes_eq_gather_visited]
  · rw [ofNodes_eq_gather_visited, documentClass_gather]
    simp only [saidBy_eq]
  · rw [ofNodes_eq_gather_visited, lines_gather]
    simp only [saidBy_eq]

/-- The last document class counts, although it is empty and below a placeholder, and the text in
the part of another one does not. -/
example :
    ofNodes [
      { value := some "!documentclass {book}" },
      { children := [
        { value := some "!DocumentClass " },
        { value := some "!preamble", children := [
          { value := some "x", children := [{ value := some "!preamble y" }] }] }] },
      { value := some "!preamble z" }] = ⟨some "", ["x", "z"]⟩ := by
  decide +kernel

end Preamble

end OutlineTex
