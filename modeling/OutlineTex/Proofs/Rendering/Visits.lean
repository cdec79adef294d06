/-
The nodes that a rendering looks at.

Rendering looks at a node as a directive by dispatching it, and which nodes of a forest it comes to
depends on everything that happened before: a directive that includes files may switch preliminary
parts on. So the visits of a rendering are read off the rendering itself. This file lists them, one
for every node of the forest that is dispatched, with the level and the run in which that happens.

Dispatching is the only step of the traversal in which a directive is recognised or a script is
evaluated. What a rendering recognises is therefore what is recognised in its visits, in this order,
where the visit of a directive that includes outlines stands for everything inside them. The
argument does not depend on what is added up, so it is made once, for every account of steps: quiet
steps add nothing to it, and a sequence adds what its steps add, one after the other.
-/
import OutlineTex.Proofs.Rendering.Arrivals

set_option autoImplicit false

namespace OutlineTex

open Rendering

/-! ## Visits -/

/-- The directives that a step recognises, with their nodes. -/
def Outcome.recognised {α : Type} (outcome : Outcome α) : List (Node × Directive) :=
  outcome.events.filterMap Event.recognised?

/-- A node that is dispatched, with the level and the run in which it is. -/
structure Visit where
  level : Level
  run : Run
  node : Node

namespace Visit

/-- What decides about a visit: the depth, the node, and whether preliminary parts are shown. -/
def arrival (visit : Visit) : Arrival :=
  ⟨visit.level.depth, visit.node, visit.run.showPreliminary⟩

/-- The directives that are recognised in a visit, with their nodes. -/
def recognises (world : World) (enter : Entering) (visit : Visit) : List (Node × Directive) :=
  (dispatch world enter visit.level visit.node visit.run).recognised

end Visit

/-- The visits behind a step, if it succeeds: those that come with its value and the run that it
leaves. -/
def Outcome.thenVisits {α : Type} (outcome : Outcome α) (next : α → Run → List Visit) :
    List Visit :=
  match outcome.result with
  | .error _ => []
  | .ok a => next a outcome.run

theorem Outcome.thenVisits_of_ok {α : Type} {outcome : Outcome α} {next : α → Run → List Visit}
    {a : α} (h : outcome.result = .ok a) : outcome.thenVisits next = next a outcome.run := by
  rw [thenVisits, h]

mutual

/-- The visits of rendering a node and what is below it. -/
def visitsAt (world : World) (enter : Entering) (next : Option Node) :
    Node → Level → Run → List Visit
  | ⟨value, source, children⟩, level, run =>
    ⟨level, run, ⟨value, source, children⟩⟩ ::
      (dispatch world enter level ⟨value, source, children⟩ run).thenVisits fun verdict run =>
        match verdict with
        | .proceed value =>
          let address := Node.leadingAddress? children
          (level.writeLine source address value next run).thenVisits fun level run =>
            let below := Level.fresh (level.depth + 1) level.setting
            match children with
            | [] => []
            | first :: rest =>
              if address.isSome then visitsOf world enter rest below run
              else visitsOf world enter (first :: rest) below run
        | _ => []

/-- The visits of rendering siblings. -/
def visitsOf (world : World) (enter : Entering) : List Node → Level → Run → List Visit
  | [], _, _ => []
  | node :: rest, level, run =>
    visitsAt world enter rest.head? node level run ++
      (renderNode world enter rest.head? node level run).thenVisits fun level run =>
        visitsOf world enter rest level run

end

/-- A node is visited, and if it is rendered as a line, so are the nodes of its subtree. -/
theorem visitsAt_eq (world : World) (enter : Entering) (next : Option Node) (node : Node)
    (level : Level) (run : Run) :
    visitsAt world enter next node level run = ⟨level, run, node⟩ ::
      (dispatch world enter level node run).thenVisits fun verdict run =>
        match verdict with
        | .proceed value =>
          (level.writeLine node.source node.link? value next run).thenVisits fun level run =>
            visitsOf world enter node.subtree (.fresh (level.depth + 1) level.setting) run
        | _ => [] := by
  obtain ⟨value, source, children⟩ := node
  rw [visitsAt]
  congr 2
  funext verdict run
  cases verdict with
  | proceed value =>
    refine congrArg (Outcome.thenVisits _) (funext fun level => funext fun run => ?_)
    cases children with
    | nil => simp [Node.subtree, Node.link?, Node.leadingAddress?, visitsOf]
    | cons first rest =>
      by_cases h : (Node.leadingAddress? (first :: rest)).isSome <;>
        simp [Node.subtree, Node.link?, h]
  | _ => rfl

/-! ## Accounts -/

/-- What may be said to be added to a list by a step, given the run that it begins in and its
outcome. -/
abbrev Accounting (β : Type) := (α : Type) → Run → Outcome α → List β → Prop

/-- An account of steps: quiet steps add nothing, a sequence adds what its steps add, up to the one
that fails, and putting what is written into one block makes no difference. -/
structure Account {β : Type} (adds : Accounting β) : Prop where
  quiet : ∀ {α} {step : Rendering α}, Comparison.quiet α step step → ∀ run,
    adds α run (step run) []
  enclosing : ∀ {α} {step : Rendering α} {run added} (wrap : List Block → Block),
    adds α run (step run) added → adds α run (within wrap step run) added
  stopping : ∀ {α γ} {step : Rendering α} {next : α → Rendering γ} {run failure added},
    (step run).result = .error failure → adds α run (step run) added →
    adds γ run ((step >>= next) run) added
  continuing : ∀ {α γ} {step : Rendering α} {next : α → Rendering γ} {run a first second},
    (step run).result = .ok a → adds α run (step run) first →
    adds γ (step run).run (next a (step run).run) second →
    adds γ run ((step >>= next) run) (first ++ second)

namespace Account

variable {α β γ : Type} {adds : Accounting β} (h : Account adds) {step : Rendering α}
  {next : α → Rendering γ} {run : Run} {added : List β} (world : World) (enter : Entering)
  {adding : Visit → List β}
include h

/-- What comes behind a step adds something only if the step succeeds. -/
theorem inSequence (visits : α → Run → List Visit) (hstep : adds α run (step run) added)
    (hnext : ∀ a, (step run).result = .ok a → adds γ (step run).run (next a (step run).run)
      ((visits a (step run).run).flatMap adding)) :
    adds γ run ((step >>= next) run) (added ++ ((step run).thenVisits visits).flatMap adding) := by
  unfold Outcome.thenVisits
  cases hresult : (step run).result with
  | error failure =>
    dsimp only
    rw [List.flatMap_nil, List.append_nil]
    exact h.stopping hresult hstep
  | ok a => exact h.continuing hresult hstep (hnext a hresult)

theorem beforeQuiet (hstep : adds α run (step run) added)
    (hnext : ∀ a, Comparison.quiet γ (next a) (next a)) :
    adds γ run ((step >>= next) run) added := by
  cases hresult : (step run).result with
  | error failure => exact h.stopping hresult hstep
  | ok a =>
    have hboth := h.continuing hresult hstep (h.quiet (hnext a) (step run).run)
    rwa [List.append_nil] at hboth

/-- Below a line, what is added is what the nodes there add. -/
theorem renderBelow {nodes : List Node} (level : Level)
    (hnodes : adds Level run
      (renderNodes world enter nodes (.fresh (level.depth + 1) level.setting) run)
      ((visitsOf world enter nodes (.fresh (level.depth + 1) level.setting) run).flatMap adding)) :
    adds Level run (renderBelow world enter nodes level run)
      ((visitsOf world enter nodes (.fresh (level.depth + 1) level.setting) run).flatMap
        adding) := by
  have hquiet := Comparison.quiet.plain
  unfold OutlineTex.renderBelow
  by_cases hempty : nodes.isEmpty = true
  · rw [if_pos hempty, List.isEmpty_iff.mp hempty, visitsOf, List.flatMap_nil]
    exact h.quiet (hquiet.returning level) run
  · rw [if_neg hempty, Level.descend_eq, Level.enclose]
    refine h.beforeQuiet (h.enclosing _ ?_) fun inner => hquiet.returning _
    exact h.beforeQuiet hnodes fun inner => hquiet.closeRun inner

/-- **What a rendering adds, it adds in its visits.** The induction is on the forest, down what is
rendered below each node. -/
theorem renderNodes (hdispatch : ∀ level node run,
      adds Verdict run (dispatch world enter level node run) (adding ⟨level, run, node⟩))
    (nodes : List Node) (level : Level) (run : Run) :
    adds Level run (renderNodes world enter nodes level run)
      ((visitsOf world enter nodes level run).flatMap adding) := by
  have hquiet := Comparison.quiet.plain
  induction nodes using Node.subtree_induction generalizing level run with
  | nil => exact h.quiet (hquiet.returning level) run
  | cons node rest ihsubtree ihrest =>
    have hnode : adds Level run (renderNode world enter rest.head? node level run)
        ((visitsAt world enter rest.head? node level run).flatMap adding) := by
      rw [visitsAt_eq, List.flatMap_cons, renderNode_eq]
      refine h.inSequence _ (hdispatch level node run) fun verdict _ => ?_
      -- only a line leads to further visits, and writing it adds nothing
      cases verdict with
      | proceed value =>
        dsimp only
        rw [renderLine]
        exact h.inSequence _ (h.quiet (hquiet.writeLine _ _ _ _ _) _) fun after _ =>
          h.renderBelow world enter after (ihsubtree _ _)
      | _ => exact h.quiet (hquiet.follow level _) _
    rw [OutlineTex.renderNodes, visitsOf, List.flatMap_append]
    exact h.inSequence _ hnode fun after _ => ihrest after _

end Account

/-! ## What is recognised -/

section Recognised

variable {α β : Type} {step : Rendering α} {next : α → Rendering β} {run : Run}

/-- A quiet step recognises nothing. -/
theorem recognised_of_quiet (h : Comparison.quiet α step step) (run : Run) :
    (step run).recognised = [] := by
  rw [Outcome.recognised, List.filterMap_eq_nil_iff]
  exact (h run).2

/-- The directives that are recognised are such an account. -/
theorem recognising : Account fun _ _ outcome added => outcome.recognised = added where
  quiet := recognised_of_quiet
  enclosing _ hstep := hstep
  stopping hresult hstep := by
    rw [then_of_error hresult]
    exact hstep
  continuing hresult hstep hnext := by
    rw [then_of_ok hresult, ← hstep, ← hnext]
    exact List.filterMap_append

theorem recognised_before_quiet (hnext : ∀ a, Comparison.quiet β (next a) (next a)) (run : Run) :
    ((step >>= next) run).recognised = (step run).recognised :=
  recognising.beforeQuiet rfl hnext

end Recognised

section Directives

variable (world : World) (enter : Entering) {level : Level} {node : Node}

/-- Running a script recognises nothing, whatever comes of it. -/
theorem recognised_runScript (source : String) (block : ScriptBlock) (run : Run) :
    (runScript world source block run).recognised = [] := by
  have hevaluate : (world.evaluate block run).recognised = [] := by
    obtain ⟨files, outlineSuffix, evaluator, processes⟩ := world
    cases evaluator with
    | interpreter executable timeout =>
      simp only [World.evaluate]
      split <;> rfl
    | _ => rfl
  rw [runScript, recognised_before_quiet (fun answer after => ?_), hevaluate]
  cases answer with
  | ok lines => exact ⟨rfl, fun event hevent => absurd hevent List.not_mem_nil⟩
  | error fault =>
    refine ⟨rfl, fun event hevent => ?_⟩
    obtain rfl : event = .scriptFailed source fault := List.mem_singleton.mp hevent
    rfl

/-- Apart from inclusions, carrying out a directive recognises nothing more. -/
theorem recognised_carryOut {directive : Directive}
    (hincludes : ∀ once names, directive ≠ .inclusion once names) (run : Run) :
    (carryOut world enter level node directive run).recognised = [] := by
  have hquiet := Comparison.quiet.plain
  have hcomment (text : String) : (carryOut world enter level node (.comment text) run).recognised =
      [] := by
    rw [carryOut, recognised_before_quiet fun _ => hquiet.returning _]
    exact recognised_of_quiet (hquiet.writeComment _ _ _) run
  cases directive with
  | inclusion once names => exact absurd rfl (hincludes once names)
  | comment text => exact hcomment text
  | preliminary text =>
    -- a preliminary part that is not shown is a comment
    rw [carryOut, then_of_ok rfl]
    by_cases hshown : run.showPreliminary = true
    · rw [if_pos hshown]
      rfl
    · rw [if_neg hshown]
      exact hcomment s!"PRELIMINARY {text}"
  | format temporary code =>
    rw [carryOut]
    cases level.styles.update level.depth code <;> rfl
  | script verbose code =>
    rw [carryOut, recognised_before_quiet fun _ => hquiet.returning _]
    exact recognised_runScript world _ _ run
  | _ => rfl

end Directives

/-- What a rendering recognises, it recognises in its visits. -/
theorem recognised_renderNodes (world : World) (enter : Entering) (nodes : List Node)
    (level : Level) (run : Run) :
    (renderNodes world enter nodes level run).recognised =
      (visitsOf world enter nodes level run).flatMap (Visit.recognises world enter) :=
  recognising.renderNodes world enter (fun _ _ _ => rfl) nodes level run

end OutlineTex
