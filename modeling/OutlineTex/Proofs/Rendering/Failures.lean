/-
Which outlines cannot be rendered.

Rendering comes to some nodes and not to others. It comes to the nodes that it is given, and
below a node only if the node is rendered as a line: a directive leads nowhere, except for a
preliminary part while such parts are shown. Whether they are may change on the way, because a
directive can switch them on. The nodes that rendering comes to are listed here by a walk that
renders nothing. It knows the depth, and hands on whether preliminary parts are shown.

Leaving out the files that directives include and evaluations of scripts that are broken off, two
things can fail at a node. A placeholder has no line, and the code of a switch of styles may spell
an id that is no style. A line needs a style as well, but that is never wanting: the stack has
styles in the beginning, a switch puts in at least one, and a temporary switch brings back a stack
that had some. So the walk tells whether rendering fails, and with what.
-/
import OutlineTex.Proofs.Rendering.Arrivals
import OutlineTex.Proofs.Rendering.Scope
import OutlineTex.Proofs.Rendering.Scripts

set_option autoImplicit false

namespace OutlineTex

open Rendering

/-! ## The walk -/

mutual

/-- The nodes that rendering comes to from a node on, itself the first. A web address that is
folded into its line is none of them. -/
def arrivalsAt (depth : Nat) (shown : Bool) : Node → List Arrival
  | ⟨value, source, children⟩ =>
    let here : Arrival := ⟨depth, ⟨value, source, children⟩, shown⟩
    here ::
      if here.proceeds then
        match children with
        | [] => []
        | first :: rest =>
          if (Node.leadingAddress? children).isSome then arrivals (depth + 1) shown rest
          else arrivals (depth + 1) shown (first :: rest)
      else []

/-- The nodes that rendering comes to in siblings, in document order. Preliminary parts are shown
behind a node if they were shown before it or something in it has switched them on. -/
def arrivals (depth : Nat) (shown : Bool) : List Node → List Arrival
  | [] => []
  | node :: rest =>
    let here := arrivalsAt depth shown node
    here ++ arrivals depth (shown || here.any Arrival.shows) rest

end

/-- Below a node that is rendered as a line come the nodes of its subtree, and below any other
none. -/
theorem arrivalsAt_eq (depth : Nat) (shown : Bool) (node : Node) :
    arrivalsAt depth shown node = ⟨depth, node, shown⟩ ::
      if Arrival.proceeds ⟨depth, node, shown⟩ then arrivals (depth + 1) shown node.subtree
      else [] := by
  obtain ⟨value, source, children⟩ := node
  cases children with
  | nil => simp [arrivalsAt, Node.subtree, Node.link?, Node.leadingAddress?, arrivals]
  | cons first rest =>
    by_cases h : (Node.leadingAddress? (first :: rest)).isSome <;>
      simp [arrivalsAt, Node.subtree, Node.link?, h]

/-! ## Coming to an end -/

/-- A step that comes to nodes, with preliminary parts shown or not in its beginning, meets the
first failure among them, if all of its scripts are answered. If there is none it succeeds, and
preliminary parts are shown at its end if they were or one of the nodes has switched them on. -/
def Outcome.Meets {α : Type} (reached : List Arrival) (shown : Bool) (outcome : Outcome α) : Prop :=
  outcome.Answered →
    match reached.findSome? Arrival.failure? with
    | some failure => outcome.result = .error failure
    | none => (∃ a, outcome.result = .ok a) ∧
        outcome.run.showPreliminary = (shown || reached.any Arrival.shows)

namespace Meets

variable {α β : Type} {reached : List Arrival} {shown : Bool}

/-- A step that comes to no node and leaves the run as it was. -/
theorem of_ok {step : Rendering α} {run : Run} {a : α} (hok : (step run).result = .ok a)
    (hrun : (step run).run = run) : (step run).Meets [] run.showPreliminary := by
  refine fun _ => ⟨⟨a, hok⟩, ?_⟩
  rw [hrun, List.any_nil, Bool.or_false]

/-- A step that comes to nodes and then one that comes to others, with what is shown behind the
first ones, meet the failures of both. -/
theorem inSequence {behind : List Arrival} {step : Rendering α} {next : α → Rendering β} {run : Run}
    (hstep : (step run).Meets reached shown)
    (hnext : ∀ a, (step run).result = .ok a →
      (step run).run.showPreliminary = (shown || reached.any Arrival.shows) →
      (next a (step run).run).Meets behind (step run).run.showPreliminary) :
    ((step >>= next) run).Meets (reached ++ behind) shown := by
  intro hanswered
  have hmet := hstep hanswered.first
  rw [List.findSome?_append, List.any_append, ← Bool.or_assoc]
  cases hfirst : reached.findSome? Arrival.failure? with
  | some failure =>
    rw [hfirst] at hmet
    rw [then_of_error hmet]
    rfl
  | none =>
    rw [hfirst] at hmet
    obtain ⟨⟨a, ha⟩, hshown⟩ := hmet
    have hbehind := hnext a ha hshown (hanswered.rest ha)
    rw [hshown] at hbehind
    rw [then_of_ok ha]
    exact hbehind

/-- A step behind which nothing fails any more and nothing is shown. -/
theorem before {step : Rendering α} {next : α → Rendering β} {run : Run}
    (hstep : (step run).Meets reached shown)
    (hnext : ∀ a, (step run).result = .ok a → ∃ b, (next a (step run).run).result = .ok b ∧
      (next a (step run).run).run = (step run).run) :
    ((step >>= next) run).Meets reached shown := by
  rw [← List.append_nil reached]
  refine inSequence hstep fun a ha _ => ?_
  obtain ⟨b, hb, hrun⟩ := hnext a ha
  exact of_ok hb hrun

/-- Closing the list that is open at the end of a level cannot fail. -/
theorem closed {step : Rendering Level} {run : Run} (hstep : (step run).Meets reached shown) :
    ((step >>= Level.closeRun) run).Meets reached shown :=
  before hstep fun level _ =>
    ⟨_, level.result_closeRun _, (Comparison.quiet.plain.closeRun level _).1⟩

end Meets

/-! ## Directives -/

section Directives

variable (world : World) (enter : Entering) {level : Level} {node : Node} {run : Run}

/-- A directive without a fault that includes no files is carried out, if it is no script that is
not answered. Preliminary parts are shown behind it if they were or if it is the one that switches
them on. -/
theorem carryOut_of_faultless {directive : Directive} (hfault : directive.fault? = none)
    (hincludes : ∀ once names, directive ≠ .inclusion once names)
    (hanswered : (carryOut world enter level node directive run).Answered) :
    let carried := carryOut world enter level node directive run
    (∃ verdict, carried.result = .ok verdict) ∧
      carried.run.showPreliminary = (run.showPreliminary || directive == .showPreliminary) := by
  -- a comment and a preliminary part that is not shown are written in the same way
  have hcomment (text : String) :
      let step : Rendering Verdict := do
        level.writeComment text node.children
        return .done
      (∃ verdict, (step run).result = .ok verdict) ∧
        (step run).run.showPreliminary = (run.showPreliminary || false) := by
    have hok : (level.writeComment text node.children run).result = .ok () := by
      rw [Level.writeComment_eq]
      rfl
    have hrun := (Comparison.quiet.plain.writeComment level text node.children run).1
    dsimp only
    rw [then_of_ok hok, hrun]
    exact ⟨⟨_, rfl⟩, (Bool.or_false _).symm⟩
  cases directive with
  | inclusion once names => exact absurd rfl (hincludes once names)
  | format temporary code =>
    obtain ⟨below, hbelow⟩ := StyleStack.exists_ofCode hfault
    have hupdate : level.styles.update level.depth code =
        .ok (level.styles.overlay level.depth below) := by
      rw [StyleStack.update, hbelow]
      rfl
    rw [carryOut, hupdate]
    exact ⟨⟨_, rfl⟩, (Bool.or_false _).symm⟩
  | preliminary text =>
    rw [carryOut, then_of_ok rfl]
    by_cases hshown : run.showPreliminary = true
    · rw [if_pos hshown]
      exact ⟨⟨_, rfl⟩, (Bool.or_false _).symm⟩
    · rw [if_neg hshown]
      exact hcomment _
  | script verbose code =>
    rw [carryOut] at hanswered
    obtain ⟨lines, launches, events, hscript⟩ := runScript_of_answered hanswered.first
    rw [carryOut_script, hscript]
    exact ⟨⟨_, rfl⟩, (Bool.or_false _).symm⟩
  | comment text =>
    rw [carryOut]
    exact hcomment text
  | showPreliminary => exact ⟨⟨_, rfl⟩, (Bool.or_true _).symm⟩
  | verbatim text => exact ⟨⟨_, rfl⟩, (Bool.or_false _).symm⟩
  | preamble => exact ⟨⟨_, rfl⟩, (Bool.or_false _).symm⟩
  | escaping on => exact ⟨⟨_, rfl⟩, (Bool.or_false _).symm⟩

/-- A directive that includes no files meets its own failure. -/
theorem meets_dispatch {directive : Directive}
    (hdirective : node.value.bind Directive.ofValue? = some directive)
    (hincludes : ∀ once names, directive ≠ .inclusion once names) :
    (dispatch world enter level node run).Meets [⟨level.depth, node, run.showPreliminary⟩]
      run.showPreliminary := by
  obtain ⟨value, hvalue, hparsed⟩ := Option.bind_eq_some_iff.mp hdirective
  have hfailure : Arrival.failure? ⟨level.depth, node, run.showPreliminary⟩ = directive.fault? := by
    simp only [Arrival.failure?, Arrival.directive?, hvalue, Option.bind_some, hparsed]
  have hshows : Arrival.shows ⟨level.depth, node, run.showPreliminary⟩ =
      (directive == .showPreliminary) := by
    simp [Arrival.shows, Arrival.directive?, hdirective]
  rw [dispatch_of_directive world enter hdirective]
  intro hanswered
  rw [List.findSome?_singleton, hfailure, List.any_cons, List.any_nil, Bool.or_false, hshows]
  cases hfault : directive.fault? with
  | none => exact carryOut_of_faultless world enter hfault hincludes hanswered
  | some failure =>
    -- only the code of a switch can have a fault
    cases directive with
    | format temporary code =>
      have hupdate : level.styles.update level.depth code = .error failure := by
        rw [StyleStack.update, StyleStack.ofCode_of_fault? hfault]
        rfl
      dsimp only
      rw [carryOut, hupdate]
      rfl
    | _ => exact absurd hfault (by simp [Directive.fault?])

end Directives

/-! ## Lines -/

section Lines

variable {level : Level} {reference : StyleStack}

/-- A line that is there can be written on a level with styles. It leaves the run as it was. -/
theorem Level.KeepsAbove.exists_writeLine (h : level.KeepsAbove reference) (source : String)
    (address : Option String) (value : String) (next : Option Node) (run : Run) :
    ∃ after, (level.writeLine source address (some value) next run).result = .ok after ∧
      (level.writeLine source address (some value) next run).run = run ∧
      after.depth = level.depth ∧ after.KeepsAbove reference := by
  have hok : ∃ after,
      (level.writeLine source address (some value) next run).result = .ok after := by
    rw [Level.writeLine_some]
    -- the level as it is when the style is looked up
    have hrestored : ∃ restored, ((if Node.isContinuation (some value) then pure level
        else level.restoreTemporary : Rendering Level) run).result = .ok restored ∧
        restored.KeepsAbove reference := by
      split
      · exact ⟨level, rfl, h⟩
      · have hresult := level.result_restoreTemporary run
        exact ⟨_, hresult, (scopes.restoreTemporary level run _ hresult).2 reference h⟩
    obtain ⟨restored, hresult, hkept⟩ := hrestored
    obtain ⟨style, hstyle⟩ := StyleStack.exists_styleAt hkept.styles.1 restored.depth
    rw [then_of_ok hresult, hstyle, ofExcept_ok, pure_bind,
      then_of_ok (restored.result_settleRun style source _)]
    exact ⟨_, rfl⟩
  obtain ⟨after, hafter⟩ := hok
  obtain ⟨hdepth, hkeeps⟩ :=
    scopes.writeLine source address (some value) next level run after hafter
  exact ⟨after, hafter, (Comparison.quiet.plain.writeLine level _ _ _ _ run).1, hdepth,
    hkeeps reference h⟩

/-- Going on after a verdict that asks for no line cannot fail, and leaves the run as it was. -/
theorem Level.exists_follow (level : Level) (verdict : Verdict) (run : Run) :
    ∃ after, (level.follow verdict run).result = .ok after ∧
      (level.follow verdict run).run = run := by
  have hquiet := (Comparison.quiet.plain.follow level verdict run).1
  cases verdict with
  | styles styles temporary => exact ⟨_, level.result_switchStyles styles temporary run, hquiet⟩
  | _ => exact ⟨_, rfl, hquiet⟩

end Lines

/-! ## The traversal -/

section Traversal

variable (world : World) (fuel : Nat)

/-- Rendering nodes on a level meets the failures among the nodes that it comes to, whichever
stack the styles of the level agree with. -/
def MeetsArrivals (nodes : List Node) : Prop :=
  ∀ (level : Level) (run : Run) (reference : StyleStack), level.KeepsAbove reference →
    (∀ arrival ∈ arrivals level.depth run.showPreliminary nodes, arrival.includes = false) →
    (renderNodes world (enterOutline world fuel) nodes level run).Meets
      (arrivals level.depth run.showPreliminary nodes) run.showPreliminary

variable {world fuel}

/-- What is below a line is rendered one deeper, with the styles in force at the line. -/
theorem MeetsArrivals.renderBelow {nodes : List Node} (hnodes : MeetsArrivals world fuel nodes)
    {level : Level} {run : Run} {reference : StyleStack} (hlevel : level.KeepsAbove reference)
    (hincludes : ∀ arrival ∈ arrivals (level.depth + 1) run.showPreliminary nodes,
      arrival.includes = false) :
    (renderBelow world (enterOutline world fuel) nodes level run).Meets
      (arrivals (level.depth + 1) run.showPreliminary nodes) run.showPreliminary := by
  rw [OutlineTex.renderBelow]
  by_cases hempty : nodes.isEmpty = true
  · rw [if_pos hempty, List.isEmpty_iff.mp hempty, arrivals]
    exact Meets.of_ok rfl rfl
  · rw [if_neg hempty, Level.descend_eq, Level.enclose]
    have hinner : (renderNodes world (enterOutline world fuel) nodes
        (.fresh (level.depth + 1) level.setting) run).Meets
          (arrivals (level.depth + 1) run.showPreliminary nodes) run.showPreliminary :=
      hnodes (.fresh (level.depth + 1) level.setting) run level.styles
        (Level.keepsAbove_fresh hlevel.styles.1) hincludes
    have hclosed : (within .subtree (renderNodes world (enterOutline world fuel) nodes
        (.fresh (level.depth + 1) level.setting) >>= Level.closeRun) run).Meets
          (arrivals (level.depth + 1) run.showPreliminary nodes) run.showPreliminary :=
      Meets.closed hinner
    exact Meets.before hclosed fun inner _ => ⟨_, rfl, rfl⟩

/-- A node that does not proceed is a directive. It meets its own failure, because it leads nowhere
and going on after it cannot fail. -/
theorem meets_of_not_proceeds (world : World) (enter : Entering) (next : Option Node) {node : Node}
    {level : Level} {run : Run}
    (hstays : Arrival.proceeds ⟨level.depth, node, run.showPreliminary⟩ = false)
    (hincludes : Arrival.includes ⟨level.depth, node, run.showPreliminary⟩ = false) :
    (renderNode world enter next node level run).Meets
      [⟨level.depth, node, run.showPreliminary⟩] run.showPreliminary := by
  obtain ⟨directive, hdirective⟩ := Arrival.exists_of_not_proceeds hstays
  have hnone : ∀ once names, directive ≠ .inclusion once names := by
    rintro once names rfl
    simp [Arrival.includes, hdirective] at hincludes
  rw [renderNode_eq]
  refine Meets.before (meets_dispatch world enter hdirective hnone) fun verdict hverdict => ?_
  have hline := dispatch_of_not_proceeds world enter hstays hverdict
  have hfollow := level.exists_follow verdict
  cases verdict with
  | proceed value => exact absurd rfl (hline value)
  | _ => exact hfollow _

/-- A placeholder has no line, and that ends it before anything below. -/
theorem meets_of_placeholder (world : World) (enter : Entering) (next : Option Node) {node : Node}
    {level : Level} {run : Run} (hvalue : node.value = none) (below : List Arrival) :
    (renderNode world enter next node level run).Meets
      (⟨level.depth, node, run.showPreliminary⟩ :: below) run.showPreliminary := by
  have hdispatch : dispatch world enter level node run = ⟨.ok (.proceed none), run, [], []⟩ := by
    unfold dispatch
    rw [hvalue]
    rfl
  rw [renderNode_eq, then_of_ok (by rw [hdispatch])]
  intro _
  rw [List.findSome?_cons, Arrival.failure?, hvalue]
  rfl

/-- Any other node that proceeds has a line that can be written, and then it meets the failures of
what is rendered below. -/
theorem MeetsArrivals.of_proceeds {node : Node} (hsubtree : MeetsArrivals world fuel node.subtree)
    (next : Option Node) {level : Level} {run : Run} {reference : StyleStack}
    (hlevel : level.KeepsAbove reference) {own : String} (hvalue : node.value = some own)
    (hproceeds : Arrival.proceeds ⟨level.depth, node, run.showPreliminary⟩ = true)
    (hincludes : ∀ arrival ∈ arrivals (level.depth + 1) run.showPreliminary node.subtree,
      arrival.includes = false) :
    (renderNode world (enterOutline world fuel) next node level run).Meets
      (⟨level.depth, node, run.showPreliminary⟩ ::
        arrivals (level.depth + 1) run.showPreliminary node.subtree) run.showPreliminary := by
  obtain ⟨value, events, hdispatch, hnone⟩ :=
    dispatch_of_proceeds world (enterOutline world fuel) hproceeds
  obtain ⟨-, hshows, hfailure⟩ := Arrival.of_proceeds hproceeds
  obtain ⟨line, rfl⟩ : ∃ line, value = some line := by
    cases value with
    | none => simp [hvalue] at hnone
    | some line => exact ⟨line, rfl⟩
  have hok : (dispatch world (enterOutline world fuel) level node run).result =
      .ok (.proceed (some line)) := by rw [hdispatch]
  have hself : (dispatch world (enterOutline world fuel) level node run).Meets
      [⟨level.depth, node, run.showPreliminary⟩] run.showPreliminary := by
    intro _
    rw [List.findSome?_singleton, hfailure own hvalue, List.any_cons, hshows, hdispatch]
    exact ⟨⟨_, rfl⟩, (Bool.or_false _).symm⟩
  rw [renderNode_eq, ← List.singleton_append]
  refine Meets.inSequence hself fun verdict hverdict _ => ?_
  obtain rfl : .proceed (some line) = verdict := Except.ok.inj (hok.symm.trans hverdict)
  -- writing the line leaves the run and the depth, so what is below is rendered as it is come to
  obtain ⟨after, hafter, hrun, hdepth, hkept⟩ :=
    hlevel.exists_writeLine node.source node.link? line next run
  rw [hdispatch]
  show ((level.writeLine node.source node.link? (some line) next >>=
    OutlineTex.renderBelow world (enterOutline world fuel) node.subtree) run).Meets _ _
  rw [← List.nil_append (arrivals _ _ _)]
  refine Meets.inSequence (Meets.of_ok hafter hrun) fun other hother _ => ?_
  obtain rfl : after = other := Except.ok.inj (hafter.symm.trans hother)
  rw [hrun, ← hdepth]
  rw [← hdepth] at hincludes
  exact hsubtree.renderBelow hkept hincludes

/-- A node meets its own failure, and then those of what is rendered below it. -/
theorem MeetsArrivals.renderNode {node : Node} (hsubtree : MeetsArrivals world fuel node.subtree)
    (next : Option Node) {level : Level} {run : Run} {reference : StyleStack}
    (hlevel : level.KeepsAbove reference)
    (hincludes : ∀ arrival ∈ arrivalsAt level.depth run.showPreliminary node,
      arrival.includes = false) :
    (renderNode world (enterOutline world fuel) next node level run).Meets
      (arrivalsAt level.depth run.showPreliminary node) run.showPreliminary := by
  rw [arrivalsAt_eq] at hincludes ⊢
  by_cases hproceeds : Arrival.proceeds ⟨level.depth, node, run.showPreliminary⟩ = true
  · rw [if_pos hproceeds] at hincludes ⊢
    cases hvalue : node.value with
    | none => exact meets_of_placeholder world _ next hvalue _
    | some own =>
      exact hsubtree.of_proceeds next hlevel hvalue hproceeds fun arrival harrival =>
        hincludes arrival (List.mem_cons_of_mem _ harrival)
  · rw [if_neg hproceeds] at hincludes ⊢
    exact meets_of_not_proceeds world _ next (by simpa using hproceeds)
      (hincludes _ List.mem_cons_self)

/-- The induction is on the forest, down what is rendered below each node. -/
theorem meetsArrivals (nodes : List Node) : MeetsArrivals world fuel nodes := by
  have henter := scopes.elementary.enterOutline world fuel
  induction nodes using Node.subtree_induction with
  | nil => exact fun level run reference _ _ => Meets.of_ok rfl rfl
  | cons node rest ihsubtree ihrest =>
    intro level run reference hlevel hincludes
    rw [arrivals] at hincludes ⊢
    rw [OutlineTex.renderNodes]
    have hhere := ihsubtree.renderNode rest.head? hlevel fun arrival harrival =>
      hincludes arrival (List.mem_append_left _ harrival)
    refine Meets.inSequence hhere fun after hafter hshown => ?_
    -- the node leaves the depth, and styles that agree with the same stack
    obtain ⟨hdepth, hkeeps⟩ := scopes.elementary.renderNode world henter
      (scopes.elementary.renderNodes world henter node.subtree) rest.head? level run after hafter
    rw [← hshown, ← hdepth] at hincludes ⊢
    exact ihrest after _ reference (hkeeps reference hlevel) fun arrival harrival =>
      hincludes arrival (List.mem_append_right _ harrival)

end Traversal

/-! ## Renderings -/

/-- A rendering of a forest meets the failures among the nodes that it comes to. -/
theorem meets_render (world : World) {nodes : List Node} {depth : Nat} {setting : Setting}
    {run : Run} (hstyles : setting.styles.styles ≠ [])
    (hincludes : ∀ arrival ∈ arrivals depth run.showPreliminary nodes, arrival.includes = false) :
    (world.render nodes depth setting run).Meets (arrivals depth run.showPreliminary nodes)
      run.showPreliminary := by
  have hnodes : (renderNodes world world.enter nodes (.fresh depth setting) run).Meets
      (arrivals depth run.showPreliminary nodes) run.showPreliminary :=
    meetsArrivals nodes _ run setting.styles (Level.keepsAbove_fresh hstyles) hincludes
  have hsiblings : (renderSiblings world world.enter nodes (.fresh depth setting) run).Meets
      (arrivals depth run.showPreliminary nodes) run.showPreliminary := Meets.closed hnodes
  exact Meets.before hsiblings fun level _ => ⟨_, rfl, rfl⟩

namespace Arrival

/-- That no style is configured is the failure of no node. -/
theorem failure?_ne_noStyle (arrival : Arrival) : arrival.failure? ≠ some .noStyle := by
  intro h
  unfold failure? at h
  split at h
  · exact absurd h (by simp)
  · obtain ⟨directive, -, hfault⟩ := Option.bind_eq_some_iff.mp h
    unfold Directive.fault? at hfault
    split at hfault
    · obtain ⟨id, -, hid⟩ := Option.map_eq_some_iff.mp hfault
      exact absurd hid (by simp)
    · exact absurd hfault (by simp)

/-- A directive that swallows what is below it does not proceed, includes nothing and does not
fail. -/
theorem of_swallows {arrival : Arrival} {directive : Directive}
    (hdirective : arrival.directive? = some directive)
    (h : directive.swallows arrival.shown = true) :
    arrival.proceeds = false ∧ arrival.includes = false ∧ arrival.failure? = none := by
  unfold proceeds includes failure?
  obtain ⟨value, hvalue, -⟩ := Option.bind_eq_some_iff.mp hdirective
  rw [hdirective, hvalue]
  cases directive with
  | preliminary text => exact ⟨by simpa [Directive.swallows] using h, rfl, rfl⟩
  | verbatim | comment | preamble | script => exact ⟨rfl, rfl, rfl⟩
  | _ => exact absurd h (by simp [Directive.swallows])

end Arrival

/-- What meets the failures among some nodes fails with the first of them, and only then. -/
theorem Outcome.Meets.error_iff {α : Type} {outcome : Outcome α} {reached : List Arrival}
    {shown : Bool} (h : outcome.Meets reached shown) (hanswered : outcome.Answered)
    (failure : Failure) :
    outcome.result = .error failure ↔ reached.findSome? Arrival.failure? = some failure := by
  have hmet := h hanswered
  cases hfind : reached.findSome? Arrival.failure? with
  | none =>
    rw [hfind] at hmet
    obtain ⟨⟨after, hafter⟩, -⟩ := hmet
    exact ⟨fun h => absurd (hafter.symm.trans h) (by simp), fun h => absurd h (by simp)⟩
  | some first =>
    rw [hfind] at hmet
    have hfailed : outcome.result = .error first := hmet
    rw [hfailed]
    simp

/-- Rendering comes to a directive that swallows what is below it and to nothing else, so it
succeeds there, if the directive is no script that is not answered. -/
theorem exists_render_of_swallows (world : World) {node : Node} {depth : Nat} {setting : Setting}
    {run : Run} {directive : Directive} (hstyles : setting.styles.styles ≠ [])
    (hdirective : node.value.bind Directive.ofValue? = some directive)
    (hswallows : directive.swallows run.showPreliminary = true)
    (hanswered : (world.render [node] depth setting run).Answered) :
    ∃ after, (world.render [node] depth setting run).result = .ok after := by
  obtain ⟨hproceeds, hnone, hfailure⟩ := Arrival.of_swallows
    (show Arrival.directive? ⟨depth, node, run.showPreliminary⟩ = some directive from hdirective)
    hswallows
  have hreached : arrivals depth run.showPreliminary [node] =
      [⟨depth, node, run.showPreliminary⟩] := by
    rw [arrivals, arrivals, arrivalsAt_eq, if_neg (by simp [hproceeds])]
    rfl
  have hsingle : ∀ arrival ∈ arrivals depth run.showPreliminary [node],
      arrival.includes = false := by
    rw [hreached]
    simpa using hnone
  have hmeets := meets_render world hstyles hsingle hanswered
  rw [hreached, List.findSome?_singleton, hfailure] at hmeets
  exact hmeets.1

/-- **Which outlines cannot be rendered.** If rendering comes to no directive that includes files,
and if every script that it evaluates is answered, it fails if and only if there is a failure at one
of the nodes that it comes to, and then with the first of these failures in document order. It never
fails because no style is configured. And a directive that swallows what is below it is rendered,
whatever is below it, a script as long as it is answered. -/
theorem render_fails_iff (world : World) (nodes : List Node) (depth : Nat) (setting : Setting)
    (run : Run) (hstyles : setting.styles.styles ≠ [])
    (hincludes : ∀ arrival ∈ arrivals depth run.showPreliminary nodes, arrival.includes = false)
    (hanswered : (world.render nodes depth setting run).Answered) :
    let result := (world.render nodes depth setting run).result
    let reached := arrivals depth run.showPreliminary nodes
    ((∃ failure, result = .error failure) ↔
        ∃ arrival ∈ reached, ∃ failure, arrival.failure? = some failure) ∧
      (∀ failure, result = .error failure ↔
        reached.findSome? Arrival.failure? = some failure) ∧
      result ≠ .error .noStyle ∧
      ∀ value source children directive, Directive.ofValue? value = some directive →
        directive.swallows run.showPreliminary = true →
        (world.render [⟨some value, source, children⟩] depth setting run).Answered →
        ∃ after, (world.render [⟨some value, source, children⟩] depth setting run).result =
          .ok after := by
  intro result reached
  have hfirst := (meets_render world hstyles hincludes).error_iff hanswered
  refine ⟨?_, hfirst, ?_, ?_⟩
  · simp only [result, hfirst, reached, ← Option.isSome_iff_exists, List.findSome?_isSome_iff]
  · rw [Ne, hfirst]
    intro hnone
    obtain ⟨arrival, -, harrival⟩ := List.exists_of_findSome?_eq_some hnone
    exact arrival.failure?_ne_noStyle harrival
  · intro value source children directive hvalue hswallows hanswered
    exact exists_render_of_swallows world hstyles hvalue hswallows hanswered

/-- A line with an address and a preliminary part below it, then preliminary parts are switched
on, and in the next one a switch of styles has a fault. Placeholders stand in both parts. -/
def faulty : List Node :=
  [{ value := some "a", source := "f:1", children :=
      [{ value := some "http://b", source := "f:2" },
        { value := some "!preliminary c", source := "f:3", children := [{ source := "f:4" }] }] },
    { value := some "!showPreliminary", source := "f:5" },
    { value := some "!preliminary d", source := "f:6", children :=
      [{ value := some "!format SQX", source := "f:7", children := [{ source := "f:8" }] },
        { source := "f:9" }] }]

theorem render_fails_iff_faulty :
    let result := (World.render { files := ⟨[], []⟩ } faulty 0 ⟨⟨[{ id := "N" }]⟩, true⟩ {}).result
    (arrivals 0 false faulty).map (·.node.source) = ["f:1", "f:3", "f:5", "f:6", "f:7", "f:9"] ∧
      result = .error (.unknownStyle "Q") ∧
      (arrivals 0 true faulty).map (·.node.source) =
        ["f:1", "f:3", "f:4", "f:5", "f:6", "f:7", "f:9"] := by
  have hstyles : ([{ id := "N" }] : List Style) ≠ [] := List.cons_ne_nil _ _
  have hnone : ∀ arrival ∈ arrivals 0 false faulty, arrival.includes = false := by decide +kernel
  have hanswered : (World.render { files := ⟨[], []⟩ } faulty 0
      ⟨⟨[{ id := "N" }]⟩, true⟩ {}).Answered :=
    World.answered_render (fun _ _ => ⟨_, rfl⟩) faulty 0 _ {}
  obtain ⟨-, hfirst, -, -⟩ := render_fails_iff { files := ⟨[], []⟩ } faulty 0
    ⟨⟨[{ id := "N" }]⟩, true⟩ {} hstyles hnone hanswered
  refine ⟨by decide +kernel, (hfirst _).mpr ?_, by decide +kernel⟩
  decide +kernel

end OutlineTex
