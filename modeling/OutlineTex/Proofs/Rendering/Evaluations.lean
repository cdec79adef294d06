/-
What scripts are evaluated.

Scripts are evaluated where their nodes are dispatched, so the scripts of a rendering are accounted
for by its visits: a directive that runs a script evaluates one block, one that includes outlines
stands for the scripts inside them, and no other node asks for an evaluation. Rendering goes through
the forest in document order and never back, so that it visits a node at most once. Together with
what a line is read as, this says which lines make a block: the text of the directive itself, if it
has one, and the texts of the lines in its block of the outline.
-/
import Mathlib.Data.List.Basic
import OutlineTex.Proofs.Outline.Blocks
import OutlineTex.Proofs.Rendering.Growth
import OutlineTex.Proofs.Rendering.Visits

set_option autoImplicit false

namespace OutlineTex

open OutlineTex.Text
open Rendering

/-! ## Visits in document order -/

section Once

variable (world : World) (enter : Entering)

/-- Behind a step that fails nothing is visited. -/
theorem Outcome.sublist_thenVisits {α : Type} {outcome : Outcome α} {nodes : List Node}
    {next : α → Run → List Visit}
    (h : ∀ a run, ((next a run).map Visit.node).Sublist nodes) :
    ((outcome.thenVisits next).map Visit.node).Sublist nodes := by
  unfold thenVisits
  split
  · exact List.nil_sublist nodes
  · exact h _ _

/-- **No node is visited twice.** What is visited comes in document order, and nodes may be left
out. The induction is on the forest, down what is rendered below each node. -/
theorem sublist_visitsOf (nodes : List Node) (base : Nat) (level : Level) (run : Run) :
    ((visitsOf world enter nodes level run).map Visit.node).Sublist
      ((Outline.placedOf base nodes).map Outline.Placed.node) := by
  induction nodes using Node.subtree_induction generalizing base level run with
  | nil => exact List.Sublist.refl []
  | cons node rest ihsubtree ihrest =>
    obtain ⟨folded, hchildren⟩ := node.subtree_suffix
    have hbelow : ∀ level run, ((visitsOf world enter node.subtree level run).map
        Visit.node).Sublist ((Outline.placedOf (base + 1) node.children).map
          Outline.Placed.node) := by
      intro level run
      rw [← hchildren, Outline.placedOf_append, List.map_append]
      exact (ihsubtree _ _ _).trans (List.sublist_append_right _ _)
    rw [visitsOf, Outline.placedOf, visitsAt_eq, Outline.placedAt_eq]
    simp only [List.map_append, List.map_cons]
    refine List.Sublist.append (.cons_cons node ?_)
      (Outcome.sublist_thenVisits fun after run => ihrest base after run)
    refine Outcome.sublist_thenVisits fun verdict run => ?_
    cases verdict with
    | proceed value => exact Outcome.sublist_thenVisits fun after run => hbelow _ run
    | _ => exact List.nil_sublist _

end Once

/-! ## Scripts of visits -/

/-- The scripts that are evaluated in a visit. -/
def Visit.evaluates (world : World) (enter : Entering) (visit : Visit) : List ScriptBlock :=
  (dispatch world enter visit.level visit.node visit.run).run.scripts.drop
    visit.run.scripts.length

/-- The scripts that are evaluated are an account, because a run keeps those before. -/
theorem evaluating :
    Account fun _ run outcome added => outcome.run.scripts = run.scripts ++ added where
  quiet hquiet run := by rw [(hquiet run).1, List.append_nil]
  enclosing _ hstep := hstep
  stopping hresult hstep := by
    rw [then_of_error hresult]
    exact hstep
  continuing hresult hstep hnext := by
    rw [then_of_ok hresult, ← List.append_assoc, ← hstep]
    exact hnext

section Visits

variable (world : World) (enter : Entering) {visit : Visit}

/-- A directive that runs a script evaluates one block, -/
theorem evaluates_of_script {verbose : Bool} {code : String}
    (h : visit.arrival.directive? = some (.script verbose code)) :
    visit.evaluates world enter = [⟨scriptLines code visit.node, verbose⟩] := by
  have hdirective : visit.node.value.bind Directive.ofValue? = some (.script verbose code) := h
  obtain ⟨launches, hscript⟩ :=
    run_runScript world visit.node.source ⟨scriptLines code visit.node, verbose⟩ visit.run
  rw [Visit.evaluates, dispatch_of_directive world enter hdirective, carryOut_script, hscript]
  exact List.drop_left

/-- and other directives evaluate none, inclusions apart. -/
theorem scripts_carryOut (level : Level) (node : Node) {directive : Directive}
    (h : directive.reachesOut = false) (run : Run) :
    (carryOut world enter level node directive run).run.scripts = run.scripts := by
  have hkeeping : (Comparison.leaving fun run after => after.scripts = run.scripts).Compositional :=
    Comparison.leaving.compositional (fun _ => rfl)
      (fun _ _ _ hfirst hnext => hnext.trans hfirst) fun _ => rfl
  have hcarried := @Comparison.Descending.carryOut _ hkeeping.toDescending world world enter enter
  exact hcarried level node h run

/-- So where there is neither a script nor an inclusion nothing is evaluated. -/
theorem evaluates_of_other (h : visit.arrival.directive?.any Directive.reachesOut = false) :
    visit.evaluates world enter = [] := by
  have hscripts : (dispatch world enter visit.level visit.node visit.run).run.scripts =
      visit.run.scripts := by
    cases hdirective : visit.node.value.bind Directive.ofValue? with
    | none =>
      rw [dispatch, hdirective]
      rfl
    | some directive =>
      have hother : directive.reachesOut = false := by
        rwa [Arrival.directive?, Visit.arrival, hdirective] at h
      rw [dispatch_of_directive world enter hdirective]
      exact scripts_carryOut world enter visit.level visit.node hother visit.run
  rw [Visit.evaluates, hscripts, List.drop_length]

end Visits

/-- The scripts of a rendering are those of its visits, behind the scripts before it. -/
theorem scripts_renderSiblings (world : World) (nesting : Nat) (nodes : List Node) (level : Level)
    (run : Run) :
    (renderSiblings world (enterOutline world nesting) nodes level run).run.scripts =
      run.scripts ++ (visitsOf world (enterOutline world nesting) nodes level run).flatMap
        (Visit.evaluates world (enterOutline world nesting)) := by
  refine evaluating.beforeQuiet (evaluating.renderNodes world _ (fun level node run => ?_) nodes
    level run) fun after => Comparison.quiet.plain.closeRun after
  have hgrows := Run.grows_dispatch world nesting level node run
  exact (List.prefix_iff_eq_append.mp hgrows.scripts).symm

/-! ## Scripts of lines -/

/-- The node of a line is visited at most once, and where it is, it has the text of the line and its
block below it. -/
theorem visits_of_line (world : World) (enter : Entering) (source : String)
    (before : List (List Char)) {line : List Char} (after : List (List Char))
    (h : trimEnd line ≠ []) (level : Level) (run : Run) :
    let visits := visitsOf world enter (Outline.parse source (before ++ line :: after)) level run
    let isOwn := fun visit : Visit =>
      Outline.isOfLine (Outline.label source (before.length + 1)) visit.node
    ∀ visit ∈ visits, isOwn visit = true →
      visits.filter isOwn = [visit] ∧ visit.node.value = some (Outline.lineText line) ∧
        visit.node.valuesBelow = Outline.stretch (Outline.depth line) after := by
  intro visits isOwn visit hvisit hown
  obtain ⟨node, hvalue, hbelow, hnode⟩ := Outline.placed_of_line source before after h
  -- the node of the line comes once in the forest, so at most once among the visits
  have honce : ((visits.filter isOwn).map Visit.node).Sublist [node] := by
    have hsublist := (sublist_visitsOf world enter
      (Outline.parse source (before ++ line :: after)) 0 level run).filter
        (Outline.isOfLine (Outline.label source (before.length + 1)))
    rw [List.filter_map, List.filter_map] at hsublist
    exact hsublist.trans (congrArg (List.map Outline.Placed.node) hnode ▸ List.Sublist.refl _)
  have hmem : visit ∈ visits.filter isOwn := List.mem_filter.mpr ⟨hvisit, hown⟩
  -- there is a visit, so it is the only one
  rcases List.sublist_singleton.mp honce with hnil | hone
  · rw [List.map_eq_nil_iff.mp hnil] at hmem
    exact absurd hmem List.not_mem_nil
  · obtain ⟨own, hvisits, rfl⟩ := List.map_eq_singleton_iff.mp hone
    rw [hvisits] at hmem
    obtain rfl := List.mem_singleton.mp hmem
    exact ⟨hvisits, hvalue, hbelow⟩

/-- **A script is given its block of lines.** The scripts evaluated by rendering what was read from
lines are those of the visits, one after the other, and only directives that run scripts or include
files evaluate any. A line that is not blank is visited at most once. If it is, and if its text is a
directive that runs a script, it evaluates one block: the text of the directive, if it has one, and
the texts of the lines behind it, blank ones apart, up to the first that is no deeper. -/
theorem evaluates_lines (world : World) (nesting : Nat) (source : String)
    (lines : List (List Char)) (level : Level) (run : Run) :
    let enter := enterOutline world nesting
    let nodes := Outline.parse source lines
    let visits := visitsOf world enter nodes level run
    (renderSiblings world enter nodes level run).run.scripts =
        run.scripts ++ visits.flatMap (Visit.evaluates world enter) ∧
      (∀ visit ∈ visits, visit.arrival.directive?.any Directive.reachesOut = false →
        visit.evaluates world enter = []) ∧
      ∀ before line after, lines = before ++ line :: after → trimEnd line ≠ [] →
        let isOwn := fun visit : Visit =>
          Outline.isOfLine (Outline.label source (before.length + 1)) visit.node
        ∀ visit ∈ visits, isOwn visit = true →
          visits.filter isOwn = [visit] ∧ visit.node.value = some (Outline.lineText line) ∧
            ∀ verbose code,
              Directive.ofValue? (Outline.lineText line) = some (.script verbose code) →
              visit.evaluates world enter =
                [⟨(if code.isEmpty then [] else [code]) ++
                  Outline.stretch (Outline.depth line) after, verbose⟩] := by
  intro enter nodes visits
  refine ⟨scripts_renderSiblings world nesting nodes level run,
    fun visit _ => evaluates_of_other world enter, ?_⟩
  rintro before line after rfl hline isOwn visit hvisit hown
  obtain ⟨honly, hvalue, hbelow⟩ :=
    visits_of_line world enter source before after hline level run visit hvisit hown
  refine ⟨honly, hvalue, fun verbose code hscript => ?_⟩
  have hdirective : visit.arrival.directive? = some (.script verbose code) := by
    rw [Arrival.directive?, Visit.arrival, hvalue]
    exact hscript
  rw [evaluates_of_script world enter hdirective, scriptLines, hbelow]
  split <;> rfl

/-- A script with a text, and behind it a jump of three levels, a blank line, two dedents, what
looks like a script itself, and the line that ends the block. -/
theorem evaluates_lines_jumps :
    let world : World :=
      { files := ⟨[], []⟩, evaluator := .custom fun _ block => .ok block.lines }
    let enter := enterOutline world 0
    let before := ["a".toList]
    let line := "\t!Python x".toList
    let after := ["\t\t\t\td\te ".toList, "\t".toList, "\t\t\tf".toList, "\t\t!ruby".toList,
      "\tb".toList, "\t\tc".toList]
    let nodes := Outline.parse "t" (before ++ line :: after)
    let level : Level := { depth := 0, styles := ⟨[{ id := "N" }]⟩ }
    let rendered := renderSiblings world enter nodes level {}
    trimEnd line ≠ [] ∧
      Directive.ofValue? (Outline.lineText line) = some (.script false "x") ∧
      (∃ visit ∈ visitsOf world enter nodes level {},
        Outline.isOfLine (Outline.label "t" 2) visit.node = true ∧
        visit.evaluates world enter = [⟨["x", "de", "f", "!ruby"], false⟩]) ∧
      rendered.run.scripts = [⟨["x", "de", "f", "!ruby"], false⟩] ∧
      (Block.linesOf rendered.blocks).map Line.written =
        ["a % t:1", "x", "de", "f", "!ruby", "\tb % t:7", "\t\tc % t:8"] := by
  intro world enter before line after nodes level rendered
  have hline : trimEnd line ≠ [] := by decide
  have hscript : Directive.ofValue? (Outline.lineText line) = some (.script false "x") := by
    decide +kernel
  obtain ⟨visit, hvisit⟩ : ∃ visit, (visitsOf world enter nodes level {}).filter
      (fun visit => Outline.isOfLine (Outline.label "t" 2) visit.node) = [visit] :=
    List.length_eq_one_iff.mp (by decide +kernel)
  obtain ⟨hmem, hown⟩ := List.mem_filter.mp (hvisit ▸ List.mem_singleton_self visit)
  obtain ⟨-, -, hlines⟩ := evaluates_lines world 0 "t" (before ++ line :: after) level {}
  obtain ⟨-, -, hblock⟩ := hlines before line after rfl hline visit hmem hown
  refine ⟨hline, hscript, ⟨visit, hmem, hown, ?_⟩, by decide +kernel, by decide +kernel⟩
  rw [hblock false "x" hscript]
  decide +kernel

end OutlineTex
