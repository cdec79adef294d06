/-
Nodes as rendering comes to them.

What rendering makes of a node depends on three things: the node, its depth, and whether
preliminary parts are shown when rendering comes to it. They decide whether the node is rendered
as a line with what is below it, or is a directive that is done with, and what can fail there.
This file says so about dispatching, the step in which a node is looked at.
-/
import OutlineTex.Proofs.Rendering.Comparison
import OutlineTex.Proofs.Style.Stack

set_option autoImplicit false

namespace OutlineTex

open Rendering

/-! ## The nodes that rendering comes to -/

/-- Whether a directive is done with as a whole, whatever lies below it. Preliminary parts are as
long as they are not shown. -/
def Directive.swallows (shown : Bool) : Directive → Bool
  | .verbatim _ | .comment _ | .preamble | .script .. => true
  | .preliminary _ => !shown
  | _ => false

/-- What a directive asks for where it is carried out on a level, with preliminary parts shown or
not: a line with the text of a preliminary part, no line, or something else to be in force. -/
def Directive.Yields (level : Level) (shown : Bool) : Directive → Verdict → Prop
  | .inclusion .., verdict => ∃ setting : Setting,
      verdict = .included setting.styles setting.escaping
  | .preliminary text, verdict => verdict = if shown then .proceed (some text) else .done
  | .escaping on, verdict => verdict = .escaping on
  | .format temporary code, verdict => ∃ styles,
      level.styles.update level.depth code = .ok styles ∧ verdict = .styles styles temporary
  | _, verdict => verdict = .done

/-- What is wrong with a directive by itself: the fault of its code, if it is a switch of
styles. -/
def Directive.fault? : Directive → Option Failure
  | .format _ code => StyleStack.fault? code
  | _ => none

/-- A node that rendering comes to, its depth, and whether preliminary parts are shown by then. -/
structure Arrival where
  depth : Nat
  node : Node
  shown : Bool

namespace Arrival

variable (arrival : Arrival)

/-- The directive that the node is, if it is one. -/
def directive? : Option Directive :=
  arrival.node.value.bind Directive.ofValue?

/-- Whether the node is rendered as a line, and then what is below it. -/
def proceeds : Bool :=
  match arrival.directive? with
  | none => true
  | some (.preliminary _) => arrival.shown
  | some _ => false

/-- Whether the node is a directive that includes files. -/
def includes : Bool :=
  match arrival.directive? with
  | some (.inclusion ..) => true
  | _ => false

/-- Whether the node switches preliminary parts on. -/
def shows : Bool :=
  arrival.directive? == some .showPreliminary

/-- What fails at the node: a placeholder has no line, and a directive may have a fault. -/
def failure? : Option Failure :=
  match arrival.node.value with
  | none => some (.skippedLevel arrival.node.source arrival.depth)
  | some _ => arrival.directive?.bind Directive.fault?

/-- A node that proceeds is no directive but possibly a preliminary part, so it switches nothing
on, and nothing but a missing line can fail there. -/
theorem of_proceeds {arrival : Arrival} (h : arrival.proceeds = true) :
    arrival.includes = false ∧ arrival.shows = false ∧
      ∀ value, arrival.node.value = some value → arrival.failure? = none := by
  unfold proceeds at h
  unfold includes shows failure?
  cases hdirective : arrival.directive? with
  | none => exact ⟨rfl, rfl, fun value hvalue => by rw [hvalue]; rfl⟩
  | some directive =>
    cases directive with
    | preliminary text => exact ⟨rfl, rfl, fun value hvalue => by rw [hvalue]; rfl⟩
    | _ => simp [hdirective] at h

theorem exists_of_not_proceeds {arrival : Arrival} (h : arrival.proceeds = false) :
    ∃ directive, arrival.directive? = some directive := by
  unfold proceeds at h
  cases hdirective : arrival.directive? with
  | none => simp [hdirective] at h
  | some directive => exact ⟨directive, rfl⟩

end Arrival

/-! ## Dispatching -/

section Dispatching

variable (world : World) (enter : Entering) {level : Level} {node : Node} {run : Run}

/-- A directive is reported as recognised, and then it is carried out. -/
theorem dispatch_of_directive {directive : Directive}
    (h : node.value.bind Directive.ofValue? = some directive) :
    dispatch world enter level node run =
      let carried := carryOut world enter level node directive run
      { carried with events := .recognised node directive :: carried.events } := by
  simp only [dispatch, h]
  rw [then_of_ok rfl]
  rfl

/-- A directive that runs a script is done with when the script is. -/
theorem carryOut_script (verbose : Bool) (code : String) :
    carryOut world enter level node (.script verbose code) run =
      let ran := runScript world node.source ⟨scriptLines code node, verbose⟩ run
      { ran with result := ran.result.map fun _ => .done } := by
  rw [carryOut]
  generalize runScript world node.source ⟨scriptLines code node, verbose⟩ = script
  show (script run).andThen (fun _ run => ⟨.ok Verdict.done, run, [], []⟩) = _
  obtain ⟨result, after, blocks, events⟩ := script run
  cases result <;> simp [Outcome.andThen, Except.map]

/-- A preliminary part that is shown is a line with its text. Looking at it leaves the run as it
was. -/
theorem dispatch_of_shown {text : String}
    (h : node.value.bind Directive.ofValue? = some (.preliminary text))
    (hshown : run.showPreliminary = true) :
    dispatch world enter level node run =
      ⟨.ok (.proceed (some text)), run, [], [.recognised node (.preliminary text)]⟩ := by
  have hcarry : carryOut world enter level node (.preliminary text) run =
      ⟨.ok (.proceed (some text)), run, [], []⟩ := by
    rw [carryOut, then_of_ok rfl]
    show (⟨_, _, _, _⟩ : Outcome Verdict) = _
    simp only [look, hshown, if_true]
    rfl
  rw [dispatch_of_directive world enter h, hcarry]

/-- A node that proceeds is a line, with its own value or the text of a preliminary part. Looking
at it leaves the run as it was. -/
theorem dispatch_of_proceeds
    (h : Arrival.proceeds ⟨level.depth, node, run.showPreliminary⟩ = true) :
    ∃ value events, dispatch world enter level node run = ⟨.ok (.proceed value), run, [], events⟩ ∧
      value.isNone = node.value.isNone := by
  unfold Arrival.proceeds Arrival.directive? at h
  cases hdirective : node.value.bind Directive.ofValue? with
  | none => exact ⟨node.value, [], by simp only [dispatch, hdirective]; rfl, rfl⟩
  | some directive =>
    cases directive with
    | preliminary text =>
      have hshown : run.showPreliminary = true := by simpa [hdirective] using h
      -- the node has a value, since it is a directive
      obtain ⟨value, hvalue, -⟩ := Option.bind_eq_some_iff.mp hdirective
      exact ⟨some text, _, dispatch_of_shown world enter hdirective hshown, by rw [hvalue]; rfl⟩
    | _ => simp [hdirective] at h

/-- What carrying out a directive asks for, where it succeeds. The cases are the directives. -/
theorem yields_of_carryOut {directive : Directive} {verdict : Verdict}
    (h : (carryOut world enter level node directive run).result = .ok verdict) :
    directive.Yields level run.showPreliminary verdict := by
  cases directive with
  | inclusion once names =>
    obtain ⟨_, _, hfiles⟩ := result_bind_eq_ok.mp h
    obtain ⟨setting, _, hend⟩ := result_bind_eq_ok.mp hfiles
    exact ⟨setting, (Except.ok.inj hend).symm⟩
  | preliminary text =>
    obtain ⟨seen, hseen, hcomment⟩ := result_bind_eq_ok.mp h
    obtain rfl : run = seen := Except.ok.inj hseen
    show verdict = if run.showPreliminary then .proceed (some text) else .done
    split at hcomment
    · next hshown =>
      rw [if_pos hshown]
      exact (Except.ok.inj hcomment).symm
    · next hhidden =>
      obtain ⟨_, _, hend⟩ := result_bind_eq_ok.mp hcomment
      rw [if_neg hhidden]
      exact (Except.ok.inj hend).symm
  | format temporary code =>
    obtain ⟨styles, hstyles, hswitch⟩ := result_bind_eq_ok.mp h
    obtain ⟨_, _, hend⟩ := result_bind_eq_ok.mp hswitch
    exact ⟨styles, hstyles, (Except.ok.inj hend).symm⟩
  | preamble | escaping => exact (Except.ok.inj h).symm
  | verbatim | showPreliminary | comment | script =>
    obtain ⟨_, _, hend⟩ := result_bind_eq_ok.mp h
    exact (Except.ok.inj hend).symm

/-- A node that does not proceed is a directive that asks for no line. -/
theorem dispatch_of_not_proceeds
    (h : Arrival.proceeds ⟨level.depth, node, run.showPreliminary⟩ = false) {verdict : Verdict}
    (hverdict : (dispatch world enter level node run).result = .ok verdict)
    (value : Option String) : verdict ≠ .proceed value := by
  unfold Arrival.proceeds Arrival.directive? at h
  cases hdirective : node.value.bind Directive.ofValue? with
  | none => simp [hdirective] at h
  | some directive =>
    rw [dispatch_of_directive world enter hdirective] at hverdict
    have hyields := yields_of_carryOut world enter hverdict
    rintro rfl
    cases directive <;> simp_all [Directive.Yields]

end Dispatching

end OutlineTex
