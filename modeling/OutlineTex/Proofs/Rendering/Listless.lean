/-
Renderings without lists.

Where neither the styles in force nor any code that is reached spell a list, no list is ever open.
What a code spells matters only where a switch to it is recognised, so this is a statement about
a run together with what it recognises: the events of a run that begins without lists tell whether
it goes on without them. It holds of failing runs up to where they fail, and so of their parts.

A level on which no list is open, on which nothing is to be undone and no math is open is as good
as new: but for what is in force, nothing on it tells that anything was rendered.
-/
import OutlineTex.Proofs.Rendering.Switches

set_option autoImplicit false

namespace OutlineTex

open Rendering

/-! ## Styles without lists -/

/-- No style of the stack is that of a list. -/
def StyleStack.Listless (stack : StyleStack) : Prop :=
  ∀ style ∈ stack.styles, style.environment = none

namespace StyleStack

variable {stack below styles : StyleStack} {depth : Nat}

theorem mem_of_mem_above {style : Style} (h : style ∈ stack.above depth) : style ∈ stack.styles := by
  unfold above at h
  split at h
  · exact absurd h List.not_mem_nil
  · next last hlast =>
    rcases List.mem_append.mp h with h | h
    · exact List.mem_of_mem_take h
    · rw [List.eq_of_mem_replicate h]
      exact List.mem_of_getLast? hlast

theorem Listless.overlay (h : stack.Listless) (hbelow : below.Listless) :
    (stack.overlay depth below).Listless := by
  intro style hstyle
  rcases List.mem_append.mp hstyle with hstyle | hstyle
  · exact h style (mem_of_mem_above hstyle)
  · exact hbelow style hstyle

theorem Listless.update {code : String} (h : stack.Listless)
    (hcode : ∀ below, ofCode code = .ok below → below.Listless)
    (hstyles : stack.update depth code = .ok styles) : styles.Listless := by
  unfold StyleStack.update at hstyles
  cases hbelow : ofCode code with
  | error failure =>
    rw [hbelow] at hstyles
    exact absurd hstyles (by simp [Except.map])
  | ok below =>
    rw [hbelow] at hstyles
    rw [← Except.ok.inj hstyles]
    exact h.overlay (hcode below hbelow)

theorem Listless.styleAt {style : Style} (h : stack.Listless)
    (hstyle : stack.styleAt depth = .ok style) : style.environment = none := by
  unfold StyleStack.styleAt StyleStack.styleAt? at hstyle
  split at hstyle
  · next found hfound =>
    rw [← Except.ok.inj hstyle]
    exact h found (List.mem_of_getElem? hfound)
  · exact absurd hstyle (by simp)

end StyleStack

/-- No list is open on the level and no style that is in force there, or is to be brought back, is
that of a list. Where nothing is to be brought back, none of the lines counts as the first one
after a temporary switch. -/
structure Level.Listless (level : Level) : Prop where
  openStyle : level.openStyle = none
  styles : level.styles.Listless
  pending : ∀ styles, level.pending = some styles → styles.Listless
  unused : level.pending = none → level.temporaryUsed = false

/-! ## Parts of a run -/

/-- What is reported in the part is reported in the whole, and where the part fails, so does the
whole. -/
structure Outcome.IsPartOf {α β : Type} (part : Outcome α) (whole : Outcome β) : Prop where
  events : part.events ⊆ whole.events
  failure : ∀ failure, part.result = .error failure → whole.result = .error failure

namespace Outcome.IsPartOf

variable {α β γ : Type}

theorem trans {part : Outcome α} {middle : Outcome β} {whole : Outcome γ}
    (h : part.IsPartOf middle) (hmiddle : middle.IsPartOf whole) : part.IsPartOf whole :=
  ⟨List.Subset.trans h.events hmiddle.events, fun failure hfailure =>
    hmiddle.failure failure (h.failure failure hfailure)⟩

/-- What comes out of the first step is part of what comes out of a sequence, -/
theorem of_first {first : Outcome α} {next : α → Rendering β} :
    first.IsPartOf (first.andThen next) := by
  unfold Outcome.andThen
  cases hresult : first.result with
  | error failure =>
    refine ⟨fun _ => id, fun other hother => ?_⟩
    exact congrArg Except.error (Except.error.inj (hresult.symm.trans hother))
  | ok a =>
    refine ⟨List.subset_append_left _ _, fun failure hfailure => ?_⟩
    exact absurd (hresult.symm.trans hfailure) (by simp)

/-- and so is what comes out of the next one, if it is reached. -/
theorem of_next {first : Outcome α} {next : α → Rendering β} {a : α} (ha : first.result = .ok a) :
    (next a first.run).IsPartOf (first.andThen next) := by
  unfold Outcome.andThen
  rw [ha]
  exact ⟨List.subset_append_right _ _, fun _ => id⟩

/-- What is rendered on a level within a level is part of rendering that level. -/
theorem of_enclose (level : Level) (wrap : List Block → Block) (depth : Nat)
    (step : Level → Rendering Level) (run : Run) :
    (step (.fresh depth level.setting) run).IsPartOf (level.enclose wrap depth step run) := by
  have hclosed : (step (.fresh depth level.setting) run).IsPartOf
      ((step (.fresh depth level.setting) >>= Level.closeRun) run) := .of_first
  -- putting the blocks into one changes neither the events nor the result
  have hwithin : (step (.fresh depth level.setting) run).IsPartOf
      (within wrap (step (.fresh depth level.setting) >>= Level.closeRun) run) :=
    ⟨hclosed.events, hclosed.failure⟩
  exact hwithin.trans .of_first

end Outcome.IsPartOf

/-- No style in the codes of the switches that are recognised is that of a list. -/
def Outcome.Listless {α : Type} (outcome : Outcome α) : Prop :=
  ∀ node temporary code, (node, Directive.format temporary code) ∈ outcome.recognised →
    ∀ styles, StyleStack.ofCode code = .ok styles → styles.Listless

theorem Outcome.Listless.of_part {α β : Type} {part : Outcome α} {whole : Outcome β}
    (h : whole.Listless) (hpart : part.IsPartOf whole) : part.Listless := by
  intro node temporary code hmem
  obtain ⟨event, hevent, hrecognised⟩ := List.mem_filterMap.mp hmem
  exact h node temporary code (List.mem_filterMap.mpr ⟨event, hpart.events hevent, hrecognised⟩)

/-! ## Levels without lists -/

namespace Level

variable {level after : Level} {run : Run}

theorem listless_fresh {setting : Setting} (h : setting.styles.Listless) (depth : Nat) :
    (fresh depth setting).Listless where
  openStyle := rfl
  styles := h
  pending _ hstyles := absurd hstyles (by simp [fresh])
  unused _ := rfl

namespace Listless

theorem adopt (h : level.Listless) {setting : Setting} (hstyles : setting.styles.Listless) :
    (level.adopt setting).Listless :=
  ⟨h.openStyle, hstyles, h.pending, h.unused⟩

theorem closeRun (h : level.Listless) (hafter : (level.closeRun run).result = .ok after) :
    after.Listless := by
  rw [result_closeRun] at hafter
  rw [← Except.ok.inj hafter]
  exact ⟨rfl, h.styles, h.pending, h.unused⟩

theorem switchStyles (h : level.Listless) {styles : StyleStack} (hstyles : styles.Listless)
    {temporary : Bool} (hafter : (level.switchStyles styles temporary run).result = .ok after) :
    after.Listless := by
  rw [result_switchStyles, Except.ok.injEq] at hafter
  subst hafter
  split
  · refine ⟨rfl, hstyles, fun kept hkept => ?_, fun hnone => absurd hnone (by simp)⟩
    rw [← Option.some.inj hkept]
    exact h.styles
  · exact ⟨rfl, hstyles, h.pending, h.unused⟩

theorem restoreTemporary (h : level.Listless)
    (hafter : (level.restoreTemporary run).result = .ok after) : after.Listless := by
  rw [result_restoreTemporary, Except.ok.injEq] at hafter
  subst hafter
  split
  · exact h
  · next styles hpending =>
    split
    · exact ⟨rfl, h.pending styles hpending, fun _ hnone => absurd hnone (by simp), fun _ => rfl⟩
    · refine ⟨h.openStyle, h.styles, h.pending, fun hnone => ?_⟩
      exact absurd (hnone.symm.trans hpending) (by simp)

/-- A line opens no list if its style has none. -/
theorem writeLine (h : level.Listless) {source : String} {address value : Option String}
    {next : Option Node}
    (hafter : (level.writeLine source address value next run).result = .ok after) :
    after.Listless := by
  cases value with
  | none => exact absurd hafter (by simp [Level.writeLine, fail])
  | some value =>
    rw [writeLine_some] at hafter
    obtain ⟨ready, hready, hafter⟩ := result_bind_eq_ok.mp hafter
    have hlistless : ready.Listless := by
      split at hready
      · rwa [← Except.ok.inj hready]
      · exact h.restoreTemporary hready
    obtain ⟨style, hstyle, hafter⟩ := result_bind_eq_ok.mp hafter
    have hnone : style.environment = none := hlistless.styles.styleAt hstyle
    obtain ⟨settled, hsettled, hafter⟩ := result_bind_eq_ok.mp hafter
    rw [result_settleRun, hnone, hlistless.openStyle, Except.ok.injEq] at hsettled
    obtain ⟨_, _, hafter⟩ := result_bind_eq_ok.mp hafter
    obtain ⟨inMath, hpast⟩ := settled.exists_pastLine value
    rw [← Except.ok.inj hafter, hpast, ← hsettled]
    exact ⟨rfl, hlistless.styles, hlistless.pending, hlistless.unused⟩

end Listless

/-- A level on which no list and no math is open and nothing is to be undone is as good as new. -/
theorem eq_fresh (h : level.Listless) (hpending : level.pending = none)
    (hmath : level.inMath = false) : level = fresh level.depth level.setting := by
  obtain ⟨depth, styles, escaping, openStyle, inMath, pending, temporaryUsed⟩ := level
  have hopen : openStyle = none := h.openStyle
  have hunused : temporaryUsed = false := h.unused hpending
  dsimp only at hpending hmath
  subst hpending hmath hopen hunused
  rfl

end Level

/-! ## Runs without lists -/

/-- The contract that a level without lists leads to one, as long as no code that is recognised
spells any. -/
def listless : Contract := fun level _ outcome =>
  level.Listless → outcome.Listless → ∀ after, outcome.result = .ok after → after.Listless

namespace listless

variable {world : World} {enter : Entering} {level : Level} {run : Run}

/-- Some steps lead to a level without lists whatever is recognised. -/
theorem of_result {outcome : Outcome Level}
    (h : level.Listless → ∀ after, outcome.result = .ok after → after.Listless) :
    listless level run outcome := fun hlevel _ => h hlevel

theorem same {end_ : Run} {blocks : List Block} {events : List Event} :
    listless level run ⟨.ok level, end_, blocks, events⟩ := by
  refine of_result fun hlevel after hafter => ?_
  rw [← Except.ok.inj hafter]
  exact hlevel

theorem basic : listless.Basic where
  still _ _ := same
  inSequence {level run first next} hfirst hnext hlevel hcodes after hafter := by
    cases hresult : first.result with
    | error failure => exact absurd hafter (by simp [Outcome.andThen, hresult])
    | ok middle =>
      have hmiddle : middle.Listless := hfirst hlevel (hcodes.of_part .of_first) middle hresult
      rw [Outcome.andThen, hresult] at hafter
      exact hnext middle hresult hmiddle (hcodes.of_part (.of_next hresult)) after hafter
  failing _ _ _ := of_result fun _ _ hafter => absurd hafter (by simp)
  reporting _ _ _ _ := same
  changing _ _ _ _ := same
  entering _ _ _ _ _ _ _ := same
  writing _ _ _ _ := same

theorem enclosing {wrap : List Block → Block} {depth : Nat} {step : Level → Rendering Level}
    (hstep : listless.Holds step) : listless level run (level.enclose wrap depth step run) := by
  intro hlevel hcodes after hafter
  obtain ⟨inner, hinner, rfl⟩ := Level.of_enclose hafter
  -- what is recognised on the level within is recognised by the step
  have hinside : (step (.fresh depth level.setting) run).Listless :=
    hcodes.of_part (.of_enclose level wrap depth step run)
  obtain ⟨last, hlast, hclose⟩ := result_bind_eq_ok.mp hinner
  have hlistless : last.Listless :=
    hstep _ run (Level.listless_fresh hlevel.styles depth) hinside last hlast
  exact hlevel.adopt (hlistless.closeRun hclose).styles

theorem renderLine {node : Node}
    (hsubtree : listless.Holds (renderNodes world enter node.subtree)) (value : Option String)
    (next : Option Node) :
    listless.Holds fun level => renderLine world enter node value next level := by
  simp only [OutlineTex.renderLine]
  refine basic.bind (fun level run => of_result fun hlevel after => hlevel.writeLine) ?_
  intro level run
  unfold renderBelow
  split
  · exact same
  · exact enclosing hsubtree

/-- After a directive that sets no styles, rendering goes on with the line of the node or without
one. -/
theorem continues_renderNode {node : Node}
    (hsubtree : listless.Holds (renderNodes world enter node.subtree)) (next : Option Node) :
    listless.Continues fun level verdict =>
      match verdict with
      | .proceed value => OutlineTex.renderLine world enter node value next level
      | verdict => level.follow verdict where
  proceed value := renderLine hsubtree value next
  done _ _ := same
  escaping on level run := by
    refine of_result fun hlevel after hafter => ?_
    rw [← Except.ok.inj hafter]
    exact ⟨hlevel.openStyle, hlevel.styles, hlevel.pending, hlevel.unused⟩

/-- A switch is recognised before it is made, so its code spells no list. -/
theorem format (node : Node) (temporary : Bool) (code : String) :
    listless.Holds fun level => (do
      report (.recognised node (.format temporary code))
      let styles ← ofExcept (level.styles.update level.depth code)
      report (.switched node.source styles temporary)
      level.switchStyles styles temporary) := by
  intro level run hlevel hcodes after hafter
  -- the event that says so is the first one of the step
  have hcode := hcodes.of_part .of_first node temporary code List.mem_cons_self
  obtain ⟨_, _, hafter⟩ := result_bind_eq_ok.mp hafter
  obtain ⟨styles, hstyles, hafter⟩ := result_bind_eq_ok.mp hafter
  obtain ⟨_, _, hafter⟩ := result_bind_eq_ok.mp hafter
  exact hlevel.switchStyles (hlevel.styles.update hcode hstyles) hafter

theorem renderNode (henter : listless.Enters enter) {node : Node}
    (hsubtree : listless.Holds (renderNodes world enter node.subtree)) (next : Option Node) :
    listless.Holds (renderNode world enter next node) := by
  intro level run
  cases hsteady : (node.value.bind Directive.ofValue?).any Directive.setsStyles with
  | false =>
    rw [renderNode_eq]
    exact basic.dispatch_of_steady world (continues_renderNode hsubtree next) hsteady level run
  | true =>
    -- the two directives that set styles: files bring what is in force behind them, a switch its code
    obtain ⟨directive, hdirective, hsets⟩ := (Option.any_eq_true _ _).mp hsteady
    cases directive with
    | inclusion once names =>
      rw [renderNode_inclusion _ _ hdirective]
      refine basic.afterReport rfl (basic.afterEmit rfl ?_)
      exact basic.includeFiles world henter node.source once names level run
    | format temporary code =>
      rw [renderNode_eq]
      simp only [dispatch, hdirective, carryOut, bind_assoc, pure_bind]
      exact format node temporary code level run
    | _ => exact absurd hsets (by simp [Directive.setsStyles])

/-- Rendering siblings leads from a level without lists to one, if entering outlines does. The
induction is on the forest, down what is rendered below each node. -/
theorem renderNodes (henter : listless.Enters enter) (nodes : List Node) :
    listless.Holds (renderNodes world enter nodes) := by
  induction nodes using Node.subtree_induction with
  | nil => exact basic.still
  | cons node rest ihsubtree ihrest =>
    have hnode := renderNode henter ihsubtree rest.head?
    intro level run
    rw [OutlineTex.renderNodes]
    exact basic.bind hnode ihrest level run

/-- So does entering an outline. The induction is on the number of outlines that may be open
within one another. -/
theorem enterOutline (room : Nat) : listless.Enters (enterOutline world room) := by
  induction room with
  | zero => exact fun path level run => basic.failing level run _
  | succ room ih =>
    intro path level run
    simp only [OutlineTex.enterOutline, renderSiblings, bind_assoc, pure_bind]
    refine basic.afterOfExcept fun nodes _ => ?_
    show listless level run (level.enclose (.outline path) level.depth
      (OutlineTex.renderNodes world (OutlineTex.enterOutline world room) nodes) run)
    exact enclosing (renderNodes ih nodes)

end listless

end OutlineTex
