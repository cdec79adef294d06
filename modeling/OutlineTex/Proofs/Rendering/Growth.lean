/-
What a run only gains.

Rendering never takes back that preliminary parts are shown, and never forgets a script that was
evaluated: scripts are noted behind those before them. Nearly all steps leave both as they were; the
two that do not are the switch that shows preliminary parts and the evaluation of a script. So the
run behind any part of a rendering has all that the run before it had, whether or not that part
succeeds.
-/
import OutlineTex.Proofs.Rendering.Scripts

set_option autoImplicit false

namespace OutlineTex

open Rendering

/-! ## Runs -/

/-- A run that shows preliminary parts if another does, and has evaluated the scripts of the other
before its own. -/
structure Run.Grows (run after : Run) : Prop where
  shown : run.showPreliminary = true → after.showPreliminary = true
  scripts : run.scripts <+: after.scripts

namespace Run.Grows

variable {run middle after : Run}

theorem refl (run : Run) : run.Grows run :=
  ⟨id, List.prefix_refl _⟩

theorem trans (hfirst : run.Grows middle) (hsecond : middle.Grows after) : run.Grows after :=
  ⟨fun hshown => hsecond.shown (hfirst.shown hshown), hfirst.scripts.trans hsecond.scripts⟩

/-- Marking a file concerns neither preliminary parts nor scripts. -/
theorem mark (run : Run) (place : Location) : run.Grows (run.mark place) := by
  unfold Run.mark
  split
  · exact .refl run
  · exact ⟨id, List.prefix_refl _⟩

end Run.Grows

/-! ## Steps -/

/-- The comparison, of a step with itself, that the run behind it is related to the run before. -/
def Comparison.leaving (related : Run → Run → Prop) : Comparison := fun _ step _ =>
  ∀ run : Run, related run (step run).run

namespace Comparison.leaving

variable {related : Run → Run → Prop} (hrefl : ∀ run, related run run)
  (htrans : ∀ ⦃run middle after⦄, related run middle → related middle after → related run after)

include htrans in
theorem inSequence {α β : Type} {first second : Rendering α} {next other : α → Rendering β}
    (hfirst : leaving related α first second)
    (hnext : ∀ a, leaving related β (next a) (other a)) :
    leaving related β (first >>= next) (second >>= other) := by
  intro run
  cases hresult : (first run).result with
  | error failure =>
    rw [then_of_error hresult]
    exact hfirst run
  | ok a =>
    rw [then_of_ok hresult]
    exact htrans (hfirst run) (hnext a _)

include hrefl htrans in
/-- Nearly every step leaves the run as it was, so it is enough that runs are related to themselves,
and to those that show preliminary parts, and that the relation passes on. -/
theorem compositional
    (hshowing : ∀ run : Run, related run { run with showPreliminary := true }) :
    (leaving related).Compositional where
  returning _ := hrefl
  inSequence := inSequence htrans
  failing _ _ := hrefl
  restoring _ := hrefl
  writing _ _ := hrefl
  reporting _ _ _ := hrefl
  showing := hshowing
  asking hboth run := by
    rw [then_of_ok rfl]
    exact hboth run run rfl rfl run
  enclosing _ _ hstep := hstep

end Comparison.leaving

/-- The comparison, of a step with itself, that the run behind it has what the run before it had. -/
def growing : Comparison :=
  Comparison.leaving Run.Grows

namespace growing

theorem registering : growing.Registering where
  toCompositional := Comparison.leaving.compositional .refl (fun _ _ _ => .trans) fun _ =>
    ⟨fun _ => rfl, List.prefix_refl _⟩
  marking place run := .mark run place
  announcing _ _ := .refl

/-- A script is noted behind those before it. -/
theorem runScript (world : World) (source : String) (block : ScriptBlock) :
    growing Unit (runScript world source block) (runScript world source block) := by
  intro run
  obtain ⟨launches, hscript⟩ := run_runScript world source block run
  rw [hscript]
  exact ⟨id, List.prefix_append _ _⟩

theorem joins (world : World) : growing.Joins world world where
  script hdirective := by
    simp only [dispatch, hdirective, carryOut]
    refine registering.inSequence (fun run => .refl run) fun _ => ?_
    exact registering.inSequence (runScript world _ _) fun _ => registering.returning _
  endless _ := .refl

end growing

/-! ## Renderings -/

section Renderings

variable (world : World) (nesting : Nat)

theorem growing.dispatches :
    growing.Dispatches (fun _ => True) world world (enterOutline world nesting)
      (enterOutline world nesting) :=
  growing.registering.dispatches ⟨rfl, rfl⟩ (growing.joins world)
    (growing.registering.entersAlike ⟨rfl, rfl⟩ (growing.joins world) nesting)

/-- Looking at a node as a directive takes nothing from the run, -/
theorem Run.grows_dispatch (level : Level) (node : Node) (run : Run) :
    run.Grows (dispatch world (enterOutline world nesting) level node run).run :=
  growing.registering.dispatch (growing.dispatches world nesting) level node (fun _ _ => trivial)
    run

/-- nor does rendering siblings, -/
theorem Run.grows_renderNodes (nodes : List Node) (level : Level) (run : Run) :
    run.Grows (renderNodes world (enterOutline world nesting) nodes level run).run :=
  growing.registering.renderNodes (growing.dispatches world nesting) nodes (fun _ _ => trivial)
    level run

/-- nor rendering one node of them. -/
theorem Run.grows_renderNode (next : Option Node) (node : Node) (level : Level) (run : Run) :
    run.Grows (renderNode world (enterOutline world nesting) next node level run).run :=
  growing.registering.renderNode (growing.dispatches world nesting) next node level
    (fun _ _ => trivial) (fun below => Run.grows_renderNodes world nesting node.subtree below) run

end Renderings

end OutlineTex
