/-
What is gathered for the preamble, and what rendering takes for it.

The preamble is gathered by a walk through the outline alone, and rendering passes over the same
directives in silence. The two do not look at the same nodes. The walk goes below every node,
while rendering goes below lines only, so a part that lies in a comment or in any other directive
is gathered although rendering never looks at it: it is buried there. And rendering looks at
outlines that are included, while the walk stays in its own, so a part of an included outline is
passed over and gathered nowhere.

These are the only differences. Node by node along the visits of a rendering that succeeds, the
parts are the nodes that it passed over and the ones that are buried below them.
-/
import OutlineTex.Conversion
import OutlineTex.Proofs.FileSystem.Places
import OutlineTex.Proofs.Preamble.Parts
import OutlineTex.Proofs.Rendering.Visits

set_option autoImplicit false

namespace OutlineTex

open OutlineTex.Text
open Rendering

/-! ## Values without line feeds -/

namespace Node

/-- No value in the nodes and below them has a line feed. -/
def FeedFree (nodes : List Node) : Prop :=
  ∀ value ∈ valuesOf nodes, '\n' ∉ value.toList

namespace FeedFree

variable {node : Node} {rest : List Node}

theorem own (h : FeedFree (node :: rest)) : ∀ value ∈ node.value, '\n' ∉ value.toList := by
  intro value hvalue
  obtain ⟨own, source, children⟩ := node
  refine h value ?_
  rw [valuesOf, values]
  exact List.mem_append_left _ (List.mem_append_left _ (Option.mem_toList.mpr hvalue))

theorem subtree (h : FeedFree (node :: rest)) : FeedFree node.subtree := by
  intro value hvalue
  obtain ⟨folded, hchildren⟩ := node.subtree_suffix
  have hbelow : value ∈ valuesOf node.children := by
    rw [← hchildren, valuesOf_append]
    exact List.mem_append_right _ hvalue
  obtain ⟨own, source, children⟩ := node
  refine h value ?_
  rw [valuesOf, values]
  exact List.mem_append_left _ (List.mem_append_right _ hbelow)

theorem tail (h : FeedFree (node :: rest)) : FeedFree rest := by
  intro value hvalue
  refine h value ?_
  rw [valuesOf]
  exact List.mem_append_right _ hvalue

end FeedFree

/-- An outline that was read has no value with a line feed, because a line feed ends a line. -/
theorem feedFree_of_readOutline {world : World} {path : Path} {nodes : List Node}
    (h : world.readOutline path = .ok nodes) : FeedFree nodes := by
  obtain ⟨content, text, -, -, rfl⟩ := World.find?_of_readOutline h
  intro value hvalue hfeed
  obtain ⟨line, hline, hsubset⟩ := Outline.exists_line_of_mem_valuesOf hvalue
  have hbreak := isLineBreak_of_mem_splitLines hline '\n' (hsubset hfeed)
  exact absurd hbreak (by decide)

end Node

/-! ## Parts along the visits -/

namespace Visit

/-- The node of a visit, if it is passed over as a part of the preamble. -/
def own (visit : Visit) : List Node :=
  if visit.arrival.directive? = some .preamble then [visit.node] else []

/-- The parts below the node of a visit that rendering does not come to. There are none below a
line, and below a part that takes its children. -/
def buried (visit : Visit) : List Node :=
  if visit.arrival.proceeds || Preamble.takesChildren visit.node then []
  else Preamble.partsOf visit.node.children

end Visit

theorem partsAt_eq (node : Node) : Preamble.partsAt node =
    (if Preamble.isPart node then [node] else []) ++
      if Preamble.takesChildren node then [] else Preamble.partsOf node.children := by
  obtain ⟨value, source, children⟩ := node
  rfl

/-- A visit that does not lead to a line accounts for all parts in its node. -/
theorem Visit.partsAt_of_not_proceeds (visit : Visit)
    (hfree : ∀ value ∈ visit.node.value, '\n' ∉ value.toList)
    (hproceeds : visit.arrival.proceeds = false) :
    Preamble.partsAt visit.node = visit.own ++ visit.buried := by
  unfold own buried
  rw [partsAt_eq, hproceeds, Bool.false_or, Arrival.directive?]
  simp only [Preamble.isPart_iff hfree]
  rfl

/-- A visit that leads to a line leaves all parts in its node to the visits below it. -/
theorem Visit.partsAt_of_proceeds (visit : Visit)
    (hfree : ∀ value ∈ visit.node.value, '\n' ∉ value.toList)
    (hproceeds : visit.arrival.proceeds = true) :
    visit.own = [] ∧ visit.buried = [] ∧
      Preamble.partsAt visit.node = Preamble.partsOf visit.node.subtree := by
  have hdirective : visit.arrival.directive? ≠ some .preamble := by
    intro hdirective
    unfold Arrival.proceeds at hproceeds
    rw [hdirective] at hproceeds
    exact absurd hproceeds (by simp)
  have hpart : ¬ Preamble.isPart visit.node = true :=
    fun hpart => hdirective ((Preamble.isPart_iff hfree).mp hpart)
  have htakes : ¬ Preamble.takesChildren visit.node = true := by
    intro htakes
    have htext := (Bool.and_eq_true_iff.mp htakes).2
    exact hpart (Bool.or_eq_true_iff.mpr (.inr htext))
  refine ⟨if_neg hdirective, ?_, ?_⟩
  · rw [buried, hproceeds, Bool.true_or, if_pos rfl]
  · rw [partsAt_eq, if_neg hpart, if_neg htakes, List.nil_append, Preamble.partsOf_subtree]

section Traversal

variable (world : World) (enter : Entering)

/-- Where what is below a line is rendered, so are the nodes there, one deeper. -/
theorem exists_of_renderBelow {nodes : List Node} {level after : Level} {run : Run}
    (h : (renderBelow world enter nodes level run).result = .ok after) :
    ∃ inner, (renderNodes world enter nodes (.fresh (level.depth + 1) level.setting) run).result =
      .ok inner := by
  unfold renderBelow at h
  split at h
  · next hempty =>
    rw [List.isEmpty_iff.mp hempty]
    exact ⟨_, rfl⟩
  · rw [Level.descend_eq] at h
    obtain ⟨closed, hclosed, -⟩ := Level.of_enclose h
    obtain ⟨inner, hinner, -⟩ := result_bind_eq_ok.mp hclosed
    exact ⟨inner, hinner⟩

/-- The parts of nodes that are rendered stand along the visits. The induction is on the forest,
down what is rendered below each node. -/
theorem partsOf_eq_visits {nodes : List Node} {level after : Level} {run : Run}
    (hfree : Node.FeedFree nodes)
    (hafter : (renderNodes world enter nodes level run).result = .ok after) :
    Preamble.partsOf nodes =
      (visitsOf world enter nodes level run).flatMap fun visit => visit.own ++ visit.buried := by
  induction nodes using Node.subtree_induction generalizing level run after with
  | nil => rfl
  | cons node rest ihsubtree ihrest =>
    rw [renderNodes] at hafter
    obtain ⟨middle, hmiddle, hrest⟩ := result_bind_eq_ok.mp hafter
    have hnode : Preamble.partsAt node = (visitsAt world enter rest.head? node level run).flatMap
        fun visit => visit.own ++ visit.buried := by
      rw [renderNode_eq] at hmiddle
      obtain ⟨verdict, hverdict, hline⟩ := result_bind_eq_ok.mp hmiddle
      rw [visitsAt_eq, List.flatMap_cons, Outcome.thenVisits_of_ok hverdict]
      cases hproceeds : (Visit.arrival ⟨level, run, node⟩).proceeds with
      | false =>
        -- there is no line, so there are no visits but the one of the node
        have hsilent := dispatch_of_not_proceeds world enter hproceeds hverdict
        rw [Visit.partsAt_of_not_proceeds ⟨level, run, node⟩ hfree.own hproceeds]
        cases verdict with
        | proceed value => exact absurd rfl (hsilent value)
        | _ => exact (List.append_nil _).symm
      | true =>
        obtain ⟨hown, hburied, hparts⟩ :=
          Visit.partsAt_of_proceeds ⟨level, run, node⟩ hfree.own hproceeds
        obtain ⟨value, events, hdispatch, -⟩ := dispatch_of_proceeds world enter hproceeds
        rw [hdispatch, Except.ok.injEq] at hverdict
        subst hverdict
        obtain ⟨written, hwritten, hbelow⟩ := result_bind_eq_ok.mp hline
        obtain ⟨inner, hinner⟩ := exists_of_renderBelow world enter hbelow
        rw [hown, hburied, hparts]
        dsimp only
        rw [Outcome.thenVisits_of_ok hwritten]
        exact ihsubtree hfree.subtree hinner
    rw [Preamble.partsOf, visitsOf, List.flatMap_append, ← hnode,
      Outcome.thenVisits_of_ok hmiddle, ihrest hfree.tail hrest]

/-- The nodes that were passed over as parts of the preamble. -/
def passedOver (recognised : List (Node × Directive)) : List Node :=
  (recognised.filter (·.2 == .preamble)).map (·.1)

theorem passedOver_append (first second : List (Node × Directive)) :
    passedOver (first ++ second) = passedOver first ++ passedOver second := by
  rw [passedOver, List.filter_append, List.map_append]
  rfl

theorem passedOver_flatMap (visits : List Visit) (recognises : Visit → List (Node × Directive)) :
    passedOver (visits.flatMap recognises) = visits.flatMap fun visit =>
      passedOver (recognises visit) := by
  induction visits with
  | nil => rfl
  | cons visit rest ih => rw [List.flatMap_cons, passedOver_append, ih, List.flatMap_cons]

/-- In a visit of a directive that includes files nothing of the outline itself is passed over. In
any other visit it is the node, if it is a part. -/
theorem Visit.passedOver_recognises (visit : Visit) :
    (visit.arrival.includes = true → visit.own = []) ∧
      (visit.arrival.includes = false →
        passedOver (visit.recognises world enter) = visit.own) := by
  unfold own Arrival.includes
  cases hdirective : visit.arrival.directive? with
  | none =>
    refine ⟨fun h => absurd h (by simp), fun _ => ?_⟩
    have hnone : visit.node.value.bind Directive.ofValue? = none := hdirective
    rw [if_neg (by simp), recognises, dispatch, hnone]
    rfl
  | some directive =>
    by_cases hincludes : ∃ once names, directive = .inclusion once names
    · obtain ⟨once, names, rfl⟩ := hincludes
      exact ⟨fun _ => if_neg (by simp), fun h => absurd h (by simp)⟩
    · have hother : ∀ once names, directive ≠ .inclusion once names :=
        fun once names h => hincludes ⟨once, names, h⟩
      have hsome : visit.node.value.bind Directive.ofValue? = some directive := hdirective
      have hrecognised : visit.recognises world enter = [(visit.node, directive)] := by
        rw [recognises, dispatch_of_directive world enter hsome]
        show (visit.node, directive) :: (carryOut world enter _ _ _ _).recognised = _
        rw [recognised_carryOut world enter hother]
      refine ⟨fun h => ?_, fun _ => ?_⟩
      · split at h
        · next once names heq => exact absurd (Option.some.inj heq) (hother once names)
        · exact absurd h (by simp)
      · rw [hrecognised, passedOver]
        by_cases hpart : directive = .preamble
        · rw [if_pos (by rw [hpart]), hpart]
          rfl
        · rw [if_neg (by simpa using hpart), List.filter_cons_of_neg (by simpa using hpart)]
          rfl

end Traversal

/-! ## Conversions -/

/-- The run in which a conversion begins. -/
def World.startRun (world : World) (options : ConversionOptions) (path : Path) : Run :=
  { included := [path.resolve world.files.cwd], showPreliminary := options.showPreliminary }

/-- The conversion that lines make, for the outline of these nodes at a path. -/
def Conversion.ofLines (defaultClass : String) (path : Path) (nodes : List Node)
    (lines : List String) : Conversion :=
  let preamble := Preamble.ofNodes nodes
  let body := "\n".intercalate lines
  { body
    document := Document.text defaultClass path.name body preamble
    documentClass := Document.classArguments defaultClass preamble.documentClass
    preamble := preamble.lines }

/-- Where the outline and the style code can be read, what is left of a conversion is the
rendering. -/
theorem World.convert_of_read {world : World} (defaultClass : String) {options : ConversionOptions}
    {path : Path} {nodes : List Node} {styles : StyleStack}
    (hread : world.readOutline path = .ok nodes)
    (hstyles : StyleStack.ofCode options.styleCode = .ok styles) :
    world.convert defaultClass options path = (do
      let lines ← world.renderedLines nodes ⟨styles, options.escaping⟩
      report (.rendered path lines.length)
      return .ofLines defaultClass path nodes lines : Rendering Conversion)
        (world.startRun options path) := by
  rw [World.convert, World.conversion, hread, hstyles]
  rfl

/-- A rendering from the top recognises what rendering its nodes does, and it succeeds only where
that does. -/
theorem World.of_renderedLines (world : World) (nodes : List Node) (setting : Setting) (run : Run) :
    (world.renderedLines nodes setting run).recognised =
        (renderNodes world world.enter nodes (.fresh 0 setting) run).recognised ∧
      ∀ lines, (world.renderedLines nodes setting run).result = .ok lines →
        ∃ after, (renderNodes world world.enter nodes (.fresh 0 setting) run).result =
          .ok after := by
  have hquiet := Comparison.quiet.plain
  have hrender : (world.render nodes 0 setting run).recognised =
      (renderNodes world world.enter nodes (.fresh 0 setting) run).recognised := by
    have hsiblings : (renderSiblings world world.enter nodes (.fresh 0 setting) run).recognised =
        (renderNodes world world.enter nodes (.fresh 0 setting) run).recognised :=
      recognised_before_quiet (fun level => hquiet.closeRun level) run
    rw [← hsiblings]
    exact recognised_before_quiet (fun level => hquiet.returning _) run
  refine ⟨?_, fun lines hlines => ?_⟩
  · rw [← hrender]
    exact recognised_before_quiet (fun _ => hquiet.returning _) run
  · obtain ⟨⟨after, blocks⟩, hlisten, -⟩ := result_bind_eq_ok.mp hlines
    have hok : ∃ after, (world.render nodes 0 setting run).result = .ok after := by
      cases hresult : (world.render nodes 0 setting run).result with
      | error failure => exact absurd hlisten (by simp [Rendering.listen, hresult, Except.map])
      | ok after => exact ⟨after, rfl⟩
    obtain ⟨after, hafter⟩ := hok
    obtain ⟨closed, hclosed, -⟩ := result_bind_eq_ok.mp hafter
    obtain ⟨level, hlevel, -⟩ := result_bind_eq_ok.mp hclosed
    exact ⟨level, hlevel⟩

/-- A conversion that succeeds has read an outline and a style code, and has rendered the outline.
All that it recognises it recognises in the rendering. -/
theorem World.of_convert {world : World} {defaultClass : String} {options : ConversionOptions}
    {path : Path} {converted : Conversion}
    (h : (world.convert defaultClass options path).result = .ok converted) :
    ∃ nodes styles after, world.readOutline path = .ok nodes ∧
      StyleStack.ofCode options.styleCode = .ok styles ∧
      (renderNodes world world.enter nodes (.fresh 0 ⟨styles, options.escaping⟩)
        (world.startRun options path)).result = .ok after ∧
      (world.convert defaultClass options path).recognised =
        (renderNodes world world.enter nodes (.fresh 0 ⟨styles, options.escaping⟩)
          (world.startRun options path)).recognised ∧
      converted.preamble = (Preamble.ofNodes nodes).lines ∧
      converted.documentClass =
        Document.classArguments defaultClass (Preamble.ofNodes nodes).documentClass := by
  -- reading the outline and the style code have succeeded, and what is left is the rendering
  obtain ⟨nodes, hnodes, hbehind⟩ := result_bind_eq_ok.mp h
  obtain ⟨styles, hstyles, -⟩ := result_bind_eq_ok.mp hbehind
  have hread : world.readOutline path = .ok nodes := mapError_eq_ok.mp hnodes
  have hstyles : StyleStack.ofCode options.styleCode = .ok styles := hstyles
  rw [convert_of_read defaultClass hread hstyles] at h ⊢
  obtain ⟨hrecognised, hrendered⟩ :=
    world.of_renderedLines nodes ⟨styles, options.escaping⟩ (world.startRun options path)
  obtain ⟨lines, hlines, hend⟩ := result_bind_eq_ok.mp h
  obtain ⟨after, hafter⟩ := hrendered lines hlines
  obtain ⟨_, _, hconversion⟩ := result_bind_eq_ok.mp hend
  obtain rfl := Except.ok.inj hconversion
  refine ⟨nodes, styles, after, hread, hstyles, hafter, ?_, rfl, rfl⟩
  rw [← hrecognised]
  refine recognised_before_quiet (fun lines run => ⟨rfl, fun event hevent => ?_⟩) _
  obtain rfl := List.mem_singleton.mp hevent
  rfl

/-- **What is gathered is what is passed over, and what is buried.** A conversion that succeeds
gathers its preamble and its document class from the parts of its outline. Along the visits of
rendering that outline, these are the nodes that are passed over and the parts below nodes that
rendering does not go below. All that rendering passes over, it passes over in these visits, and a
visit passes over its own node and nothing else, unless the node includes files; then it is no part
itself, and what it passes over belongs to other outlines. So where no visit includes files and
none has anything buried, exactly what is passed over is gathered. -/
theorem gathered_convert (world : World) (defaultClass : String) (options : ConversionOptions)
    (path : Path) (converted : Conversion)
    (h : (world.convert defaultClass options path).result = .ok converted) :
    ∃ nodes styles, world.readOutline path = .ok nodes ∧
      StyleStack.ofCode options.styleCode = .ok styles ∧
      let parts := Preamble.partsOf nodes
      let silent := passedOver (world.convert defaultClass options path).recognised
      let visits := visitsOf world world.enter nodes (.fresh 0 ⟨styles, options.escaping⟩)
        (world.startRun options path)
      converted.preamble = parts.flatMap (fun part => (Preamble.saidBy part).lines) ∧
        converted.documentClass = Document.classArguments defaultClass
          (parts.filterMap fun part => (Preamble.saidBy part).documentClass).getLast? ∧
        parts = visits.flatMap (fun visit => visit.own ++ visit.buried) ∧
        silent = visits.flatMap (fun visit => passedOver (visit.recognises world world.enter)) ∧
        (∀ visit ∈ visits, (visit.arrival.includes = true → visit.own = []) ∧
          (visit.arrival.includes = false →
            passedOver (visit.recognises world world.enter) = visit.own)) ∧
        ((∀ visit ∈ visits, visit.arrival.includes = false ∧ visit.buried = []) →
          parts = silent) := by
  obtain ⟨nodes, styles, after, hread, hstyles, hafter, hrecognised, hpreamble, hclass⟩ :=
    World.of_convert h
  refine ⟨nodes, styles, hread, hstyles, ?_⟩
  intro parts silent visits
  have hparts : parts = visits.flatMap fun visit => visit.own ++ visit.buried :=
    partsOf_eq_visits world world.enter (Node.feedFree_of_readOutline hread) hafter
  have hsilent : silent = visits.flatMap fun visit =>
      passedOver (visit.recognises world world.enter) := by
    rw [← passedOver_flatMap, ← recognised_renderNodes, ← hrecognised]
  refine ⟨?_, ?_, hparts, hsilent, ?_, ?_⟩
  · rw [hpreamble, Preamble.ofNodes_eq_gather, Preamble.lines_gather]
  · rw [hclass, Preamble.ofNodes_eq_gather, Preamble.documentClass_gather]
  · exact fun visit _ => visit.passedOver_recognises world world.enter
  · intro hall
    rw [hparts, hsilent, List.flatMap_def, List.flatMap_def, List.map_congr_left]
    intro visit hvisit
    obtain ⟨hincludes, hburied⟩ := hall visit hvisit
    rw [hburied, List.append_nil, (visit.passedOver_recognises world world.enter).2 hincludes]

/-- An outline with a document class and two parts of the preamble, one of them below a line. -/
def plainWorld : World :=
  { files := ⟨[],
      [(["a.otl"], .file (Utf8.encode
        "!documentclass [a4paper]\n!preamble x\n\tz\nt\n\t!preamble y"))]⟩ }

theorem gathered_convert_plain :
    let outcome := plainWorld.convert "" { styleCode := "N" } ⟨.relative, ["a.otl"]⟩
    ∃ converted nodes, outcome.result = .ok converted ∧
      plainWorld.readOutline ⟨.relative, ["a.otl"]⟩ = .ok nodes ∧
      Preamble.partsOf nodes = passedOver outcome.recognised ∧
      converted.preamble = ["x", "z", "y"] ∧ converted.documentClass = "[a4paper]" := by
  intro outcome
  have hfields : outcome.result.map
      (fun converted => (converted.preamble, converted.documentClass)) =
      .ok (["x", "z", "y"], "[a4paper]") := by decide +kernel
  cases hresult : outcome.result with
  | error failure => exact absurd hfields (by simp [hresult, Except.map])
  | ok converted =>
    rw [hresult] at hfields
    obtain ⟨hpreamble, hclass⟩ := Prod.mk.inj (Except.ok.inj hfields)
    obtain ⟨nodes, styles, hread, hstyles, -, -, -, -, -, hagree⟩ :=
      gathered_convert plainWorld "" { styleCode := "N" } ⟨.relative, ["a.otl"]⟩ converted hresult
    refine ⟨converted, nodes, rfl, hread, hagree ?_, hpreamble, hclass⟩
    -- the outline and the styles are what is read, so the visits can be computed
    have hnodes : (plainWorld.readOutline ⟨.relative, ["a.otl"]⟩).toOption.getD [] = nodes := by
      rw [hread]
      rfl
    have hstack : (StyleStack.ofCode "N").toOption.getD {} = styles := by
      rw [hstyles]
      rfl
    rw [← hnodes, ← hstack]
    simp only [← List.isEmpty_iff]
    decide +kernel

/-- A world with two outlines. The first has a part of the preamble in a comment and includes the
second, which is a part of the preamble. -/
def strayWorld : World :=
  { files := ⟨[],
      [(["a.otl"], .file (Utf8.encode "!comment\n\t!preamble x\n!include b.otl")),
        (["b.otl"], .file (Utf8.encode "!preamble y"))]⟩ }

/-- What is gathered and what is passed over may have nothing in common. -/
theorem gathered_ne_passedOver :
    let outcome := strayWorld.convert "" { styleCode := "N" } ⟨.relative, ["a.otl"]⟩
    outcome.result.map (·.preamble) = .ok ["x"] ∧
      (passedOver outcome.recognised).flatMap (fun part => (Preamble.saidBy part).lines) =
        ["y"] := by
  decide +kernel

end OutlineTex
