/-
Directives that are done with as a whole.

A verbatim part, a comment, a part of the preamble and a preliminary part that is not shown take
what is below them along: it is set as it stands, commented out, or left out. Nothing of it is
looked at as a directive, however much it looks like one. So the turn of such a node writes its
lines and reports that it was recognised, and that is all. Level and run are as they were before,
and since no part of the world is asked for, this is so in every world.

The lines of a comment are told by the entries of the nodes below it: in document order, each at its
depth, and none for a placeholder, although what is below a placeholder is as deep as it makes it.
The induction on the forest that this rests on is that of `Level.annotateAll_eq`.
-/
import OutlineTex.Proofs.Directive.Forms
import OutlineTex.Proofs.Rendering.Arrivals

set_option autoImplicit false

namespace OutlineTex

open OutlineTex.Text
open Rendering

/-! ## What is left of a directive -/

/-- Whether a directive is done with as a whole and asks the world for nothing: a verbatim part, a
comment, a part of the preamble, or a preliminary part that is not shown. -/
def Directive.isInert (shown : Bool) (directive : Directive) : Bool :=
  directive.swallows shown && !directive.reachesOut

/-- What a directive that is commented out says above what is below it. -/
def Directive.heading? : Directive → Option String
  | .comment text => some text
  | .preliminary text => some s!"PRELIMINARY {text}"
  | _ => none

/-- The lines in which an inert directive is left, given its depth and what is below it. -/
def Directive.remains (depth : Nat) (children : List Node) : Directive → List Line
  | .verbatim text =>
    ((if text.isEmpty then [] else [text]) ++ children.filterMap (·.value)).map .copied
  | directive => (directive.heading?.map fun text => Level.commentBlock depth text children).getD []

/-! ## Turns -/

section Turns

variable (world : World) (enter : Entering) (level : Level) {node : Node} {directive : Directive}
  {run : Run}

/-- An inert directive is carried out by writing what is left of it. The cases are the
directives. -/
theorem carryOut_of_isInert (hinert : directive.isInert run.showPreliminary = true) :
    carryOut world enter level node directive run =
      ⟨.ok .done, run, (directive.remains level.depth node.children).map .line, []⟩ := by
  cases directive with
  | verbatim text => exact emitAll_then_pure _ _ run
  | comment text =>
    rw [carryOut, Level.writeComment_eq]
    exact emitAll_then_pure _ _ run
  | preamble => rfl
  | preliminary text =>
    -- the run is looked at first, and says that the part is hidden
    have hhidden : run.showPreliminary = false := by
      simpa [Directive.isInert, Directive.swallows, Directive.reachesOut] using hinert
    rw [carryOut, then_of_ok rfl]
    simp only [look, hhidden, Bool.false_eq_true, if_false, Level.writeComment_eq]
    exact emitAll_then_pure _ _ run
  | _ => exact absurd hinert (by simp [Directive.isInert, Directive.swallows, Directive.reachesOut])

theorem dispatch_of_isInert (hdirective : node.value.bind Directive.ofValue? = some directive)
    (hinert : directive.isInert run.showPreliminary = true) :
    dispatch world enter level node run =
      ⟨.ok .done, run, (directive.remains level.depth node.children).map .line,
        [.recognised node directive]⟩ := by
  rw [dispatch_of_directive world enter hdirective, carryOut_of_isInert world enter level hinert]

theorem renderNode_of_isInert (hdirective : node.value.bind Directive.ofValue? = some directive)
    (hinert : directive.isInert run.showPreliminary = true) (next : Option Node) :
    renderNode world enter next node level run =
      ⟨.ok level, run, (directive.remains level.depth node.children).map .line,
        [.recognised node directive]⟩ := by
  have hdispatch := dispatch_of_isInert world enter level hdirective hinert
  rw [renderNode_eq, then_of_ok (congrArg Outcome.result hdispatch), hdispatch]
  show (⟨.ok level, run, _ ++ [], [.recognised node directive]⟩ : Outcome Level) = _
  rw [List.append_nil]

end Turns

/-! ## What is written -/

/-- A comment block is written as its heading and, in document order, one line for each node that
has a value, at the depth of the node. -/
theorem written_commentBlock (depth : Nat) (text : String) (children : List Node) :
    (Level.commentBlock depth text children).map (·.written) =
      (tabs depth ++ "%" ++ String.ofList (trimEnd (' ' :: text.toList))) ::
        (Outline.entriesOf (depth + 1) children).filterMap fun entry =>
          entry.value.map fun value => s!"{tabs entry.depth}% {value}" := by
  have hheading : String.ofList (trimEnd s!"% {text}".toList) =
      "%" ++ String.ofList (trimEnd (' ' :: text.toList)) := by
    have htext : s!"% {text}".toList = '%' :: ' ' :: text.toList := String.toList_append
    rw [htext, trimEnd_cons_of_not_isBlank (by decide), String.ofList_cons]
    rfl
  have hbelow : (Level.commentLines (depth + 1) children).map (·.written) =
      (Outline.entriesOf (depth + 1) children).filterMap fun entry =>
        entry.value.map fun value => s!"{tabs entry.depth}% {value}" := by
    rw [Level.commentLines, List.map_filterMap]
    congr 1
    funext entry
    rw [Option.map_map]
    exact congrArg (Option.map · entry.value) (funext fun _ => (String.append_assoc ..).symm)
  rw [Level.commentBlock, List.map_cons, hbelow, hheading]
  exact congrArg (· :: _) (String.append_assoc ..).symm

/-- The values of nodes are among the values of the nodes and of what is below them. -/
theorem Node.filterMap_value_subset (nodes : List Node) :
    nodes.filterMap (·.value) ⊆ valuesOf nodes := by
  induction nodes with
  | nil => exact List.Subset.refl _
  | cons node rest ih =>
    obtain ⟨value, source, children⟩ := node
    rw [List.filterMap_cons, valuesOf, values]
    cases value with
    | none => exact List.subset_append_of_subset_right _ ih
    | some value => exact List.cons_subset_cons value (List.subset_append_of_subset_right _ ih)

theorem feed_not_mem_append {first second : String} (hfirst : '\n' ∉ first.toList)
    (hsecond : '\n' ∉ second.toList) : '\n' ∉ (first ++ second).toList := by
  rw [String.toList_append, List.mem_append, not_or]
  exact ⟨hfirst, hsecond⟩

theorem feed_not_mem_tabs (depth : Nat) : '\n' ∉ (tabs depth).toList := by
  intro hfeed
  rw [tabs, String.toList_ofList] at hfeed
  exact absurd (List.eq_of_mem_replicate hfeed) (by decide)

/-- No heading has a line feed, because no text of a directive has one. -/
theorem feed_not_mem_of_heading? {value text : String} {directive : Directive}
    (h : Directive.ofValue? value = some directive) (htext : directive.heading? = some text) :
    '\n' ∉ text.toList := by
  cases directive with
  | comment own =>
    obtain rfl : own = text := Option.some.inj htext
    exact Directive.feed_not_mem_of_text? h rfl
  | preliminary own =>
    have hown : '\n' ∉ own.toList := Directive.feed_not_mem_of_text? h rfl
    obtain rfl : s!"PRELIMINARY {own}" = text := Option.some.inj htext
    have hword : '\n' ∉ "PRELIMINARY ".toList := by decide
    exact feed_not_mem_append hword hown
  | _ => exact absurd htext (by simp [Directive.heading?])

/-- A line of a comment is tabs, a comment sign and a text, and only the text may have a line
feed. -/
theorem feed_not_mem_commentBlock {depth : Nat} {text : String} {children : List Node}
    (htext : '\n' ∉ text.toList) (hvalues : ∀ value ∈ Node.valuesOf children, '\n' ∉ value.toList) :
    ∀ line ∈ Level.commentBlock depth text children, '\n' ∉ line.written.toList := by
  intro line hline
  have hsign : ∀ text : String, '\n' ∉ text.toList → '\n' ∉ s!"% {text}".toList := by
    intro text htext
    have hpercent : '\n' ∉ "% ".toList := by decide
    exact feed_not_mem_append hpercent htext
  rcases List.mem_cons.mp hline with rfl | hbelow
  · have hheading : '\n' ∉ (String.ofList (trimEnd s!"% {text}".toList)).toList := by
      rw [String.toList_ofList]
      exact fun hfeed => hsign text htext ((trimEnd_isPrefix _).subset hfeed)
    exact feed_not_mem_append (feed_not_mem_tabs depth) hheading
  · -- a line below the heading has the value of a node, and that is one of the values
    obtain ⟨entry, hentry, hcomment⟩ := List.mem_filterMap.mp hbelow
    obtain ⟨value, hvalue, rfl⟩ := Option.map_eq_some_iff.mp hcomment
    refine feed_not_mem_append (feed_not_mem_tabs _) (hsign value (hvalues value ?_))
    rw [Outline.valuesOf_eq (depth + 1)]
    exact List.mem_filterMap.mpr ⟨entry, hentry, hvalue⟩

/-- Where no value has a line feed, no line of what is left of a directive has one. -/
theorem feed_not_mem_remains {node : Node} {directive : Directive} {depth : Nat}
    (hdirective : node.value.bind Directive.ofValue? = some directive)
    (hvalues : ∀ value ∈ node.values, '\n' ∉ value.toList) :
    ∀ line ∈ directive.remains depth node.children, '\n' ∉ line.written.toList := by
  obtain ⟨value, source, children⟩ := node
  obtain ⟨own, rfl, hown⟩ := Option.bind_eq_some_iff.mp hdirective
  have hbelow : ∀ value ∈ Node.valuesOf children, '\n' ∉ value.toList :=
    fun value hvalue => hvalues value (List.mem_append_right _ hvalue)
  intro line hline
  have hcomments : line ∈ (directive.heading?.map fun text =>
      Level.commentBlock depth text children).getD [] → '\n' ∉ line.written.toList := by
    intro hline
    cases htext : directive.heading? with
    | none => simp [htext] at hline
    | some text =>
      rw [htext] at hline
      exact feed_not_mem_commentBlock (feed_not_mem_of_heading? hown htext) hbelow line hline
  cases directive with
  | verbatim text =>
    obtain ⟨copied, hcopied, rfl⟩ := List.mem_map.mp hline
    rcases List.mem_append.mp hcopied with hown' | hchild
    · split at hown'
      · exact absurd hown' List.not_mem_nil
      · obtain rfl := List.mem_singleton.mp hown'
        exact Directive.feed_not_mem_of_text? hown rfl
    · exact hbelow copied (Node.filterMap_value_subset children hchild)
  | _ => exact hcomments hline

/-! ## Inert directives -/

/-- **What a directive takes along is inert.** The turn of a verbatim part, a comment, a part of the
preamble or a preliminary part that is hidden comes to the same in every world: its lines are
written, and the level and the run go on as they were. A part of the preamble leaves no line. A
verbatim part leaves its text, if it has one, and the values right below it. The other two leave a
heading and one line for each value below them, at its depth and behind a comment sign. And if no
value has a line feed, no line has one. -/
theorem inert_renderNode {node : Node} {directive : Directive} {run : Run}
    (hdirective : node.value.bind Directive.ofValue? = some directive)
    (hinert : directive.isInert run.showPreliminary = true) (level : Level) :
    ∃ lines : List Line,
      (∀ world enter,
        dispatch world enter level node run =
            ⟨.ok .done, run, lines.map .line, [.recognised node directive]⟩ ∧
          ∀ next, renderNode world enter next node level run =
            ⟨.ok level, run, lines.map .line, [.recognised node directive]⟩) ∧
      (directive = .preamble → lines = []) ∧
      (∀ text, directive = .verbatim text → lines.map (·.written) =
        (if text.isEmpty then [] else [text]) ++ node.children.filterMap (·.value)) ∧
      (∀ text, directive.heading? = some text → lines.map (·.written) =
        (tabs level.depth ++ "%" ++ String.ofList (trimEnd (' ' :: text.toList))) ::
          (Outline.entriesOf (level.depth + 1) node.children).filterMap fun entry =>
            entry.value.map fun value => s!"{tabs entry.depth}% {value}") ∧
      ((∀ value ∈ node.values, '\n' ∉ value.toList) →
        ∀ line ∈ lines, '\n' ∉ line.written.toList) := by
  refine ⟨directive.remains level.depth node.children, fun world enter => ⟨?_, ?_⟩, ?_, ?_, ?_,
    feed_not_mem_remains hdirective⟩
  · exact dispatch_of_isInert world enter level hdirective hinert
  · exact renderNode_of_isInert world enter level hdirective hinert
  · rintro rfl
    rfl
  · rintro text rfl
    rw [Directive.remains, List.map_map]
    exact List.map_id _
  · intro text htext
    rw [← written_commentBlock]
    cases directive with
    | comment own | preliminary own =>
      rw [← Option.some.inj htext]
      rfl
    | _ => exact absurd htext (by simp [Directive.heading?])

/-- A preliminary part that is hidden, on a level in the middle of a list and of math. What is below
it looks like an inclusion and like a script, and the script is below a placeholder. -/
theorem inert_renderNode_hidden :
    let script : Node := { value := some "!python exit()" }
    let node : Node := {
      value := some "!preliminary draft "
      children := [{ value := some "!include a.otl" }, { children := [script] }] }
    let level : Level := {
      depth := 1, styles := ⟨[Style.list "I" "itemize"]⟩, inMath := true
      openStyle := some (Style.list "I" "itemize"), pending := some ⟨[{ id := "N" }]⟩ }
    node.value.bind Directive.ofValue? = some (.preliminary "draft ") ∧
      (Directive.preliminary "draft ").isInert ({} : Run).showPreliminary = true ∧
      ∃ lines : List Line,
        (∀ world enter next, renderNode world enter next node level {} =
          ⟨.ok level, {}, lines.map .line, [.recognised node (.preliminary "draft ")]⟩) ∧
        lines.map (·.written) =
          ["\t% PRELIMINARY draft", "\t\t% !include a.otl", "\t\t\t% !python exit()"] := by
  intro script node level
  have hdirective : node.value.bind Directive.ofValue? = some (.preliminary "draft ") := by decide
  have hinert : (Directive.preliminary "draft ").isInert ({} : Run).showPreliminary = true := rfl
  obtain ⟨lines, hturn, -, -, hwritten, -⟩ := inert_renderNode hdirective hinert level
  refine ⟨hdirective, hinert, lines, fun world enter => (hturn world enter).2, ?_⟩
  rw [hwritten _ rfl]
  decide

end OutlineTex
