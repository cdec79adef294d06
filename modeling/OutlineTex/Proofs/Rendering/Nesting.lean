/-
Lists are well nested.

A list is opened by the first of the lines that share it and closed behind the last, and in
between there may be whole levels with lists of their own: what is rendered below a line,
and outlines that are included. This file shows that the lists of all these levels lie
within one another, from whatever sequence of operations on a level they come.

The state of a level tells which list of its own is open, and the lines tell which lists
are open at all. The contract below ties the two together: a step takes the lists that are
open from the one that the level knows of, on top of any others, to the one that it knows
of afterwards, on top of the same others. A level within a level begins and ends with no
list of its own, so to the level around it its lines are like no lines at all.
-/
import OutlineTex.Proofs.Rendering.Contract

set_option autoImplicit false

namespace OutlineTex

open Rendering

/-! ## Open lists -/

/-- A list that was opened and not closed: the depth of its level and the style of its
lines. -/
structure OpenList where
  depth : Nat
  style : Style
deriving DecidableEq, Repr

/-- `Nested before lines after`: the lines lead from the lists open before them to the lists
open after them, the innermost first. What closes is the innermost list, with its own depth
and style, and a line whose style has an environment stands in a list of just its depth and
style. -/
inductive Nested : List OpenList → List Line → List OpenList → Prop
  | nil (lists : List OpenList) : Nested lists [] lists
  | opening {lists lines after depth style environment source}
      (henvironment : style.environment = some environment)
      (hrest : Nested (⟨depth, style⟩ :: lists) lines after) :
      Nested lists (.opening depth style environment source :: lines) after
  | closing {lists lines after depth style environment}
      (henvironment : style.environment = some environment)
      (hrest : Nested lists lines after) :
      Nested (⟨depth, style⟩ :: lists) (.closing depth style environment :: lines) after
  | content {lists lines after} {line : TextLine}
      (hlist : line.style.environment.isSome = true →
        lists.head? = some ⟨line.depth, line.style⟩)
      (hrest : Nested lists lines after) : Nested lists (.content line :: lines) after
  | aside {lists lines after} {line : Line} (haside : line.isAside = true)
      (hrest : Nested lists lines after) : Nested lists (line :: lines) after

namespace Nested

theorem append {before middle after : List OpenList} {first second : List Line}
    (hfirst : Nested before first middle) (hsecond : Nested middle second after) :
    Nested before (first ++ second) after := by
  induction hfirst with
  | nil => exact hsecond
  | opening henvironment _ ih => exact .opening henvironment (ih hsecond)
  | closing henvironment _ ih => exact .closing henvironment (ih hsecond)
  | content hlist _ ih => exact .content hlist (ih hsecond)
  | aside haside _ ih => exact .aside haside (ih hsecond)

theorem of_isAside {lines : List Line} (h : ∀ line ∈ lines, line.isAside = true)
    (lists : List OpenList) : Nested lists lines lists := by
  induction lines with
  | nil => exact .nil lists
  | cons line rest ih =>
    exact .aside (h line List.mem_cons_self) (ih fun other hother => h other (.tail line hother))

end Nested

/-! ## The list that a level knows of -/

namespace Level

/-- The list of the level that is open, if there is one. -/
def openLists (level : Level) : List OpenList :=
  level.openStyle.toList.map (⟨level.depth, ·⟩)

/-- A list is only ever open for a style that has an environment. -/
def HasEnvironment (level : Level) : Prop :=
  ∀ style, level.openStyle = some style → style.environment.isSome = true

@[simp] theorem openLists_fresh (depth : Nat) (setting : Setting) :
    (fresh depth setting).openLists = [] := rfl

@[simp] theorem openLists_adopt (level : Level) (setting : Setting) :
    (level.adopt setting).openLists = level.openLists := rfl

theorem openLists_of_some {level : Level} {style : Style} (h : level.openStyle = some style) :
    level.openLists = [⟨level.depth, style⟩] := by
  rw [openLists, h]
  rfl

theorem openLists_of_none {level : Level} (h : level.openStyle = none) : level.openLists = [] := by
  rw [openLists, h]
  rfl

/-- What a step writes leads from the list that the level knows of to the one that the level
behind the step knows of, whatever other lists are open around them. -/
def NestsTo (level : Level) (blocks : List Block) (after : Level) : Prop :=
  level.HasEnvironment → after.HasEnvironment ∧ after.depth = level.depth ∧
    ∀ outer, Nested (level.openLists ++ outer) (Block.linesOf blocks) (after.openLists ++ outer)

/-- Steps one after the other lead on from the list where the first one leaves off. -/
theorem NestsTo.trans {level middle after : Level} {first second : List Block}
    (hfirst : level.NestsTo first middle) (hsecond : middle.NestsTo second after) :
    level.NestsTo (first ++ second) after := by
  intro hlevel
  obtain ⟨hmiddle, hdepth, hlines⟩ := hfirst hlevel
  obtain ⟨hafter, hdepth', hlines'⟩ := hsecond hmiddle
  refine ⟨hafter, hdepth'.trans hdepth, fun outer => ?_⟩
  rw [Block.linesOf_append]
  exact (hlines outer).append (hlines' outer)

end Level

/-- The contract of nesting. -/
def nests : Contract :=
  .ofSuccess Level.NestsTo

namespace nests

theorem inSequence {level : Level} {run : Run} {first : Outcome Level}
    {next : Level → Rendering Level} (hfirst : nests level run first)
    (hnext : ∀ middle, first.result = .ok middle → nests middle first.run (next middle first.run)) :
    nests level run (first.andThen next) :=
  Contract.ofSuccess.inSequence Level.NestsTo.trans hfirst hnext

/-- A step that writes only lines beside the lists and leaves the list of the level alone. -/
theorem of_isAside {level after : Level} {run end_ : Run} {events : List Event}
    {lines : List Line} (hlines : ∀ line ∈ lines, line.isAside = true)
    (hopen : after.openStyle = level.openStyle) (hdepth : after.depth = level.depth) :
    nests level run ⟨.ok after, end_, lines.map .line, events⟩ := by
  refine Contract.ofSuccess.of_ok fun hlevel => ?_
  have hlists : after.openLists = level.openLists := by
    rw [Level.openLists, hopen, hdepth, Level.openLists]
  refine ⟨fun style hstyle => hlevel style (hopen ▸ hstyle), hdepth, fun outer => ?_⟩
  rw [hlists, Block.linesOf_map_line]
  exact Nested.of_isAside hlines _

/-- A step that writes nothing and leaves the list of the level alone. -/
theorem of_silent {level after : Level} {run end_ : Run} {events : List Event}
    (hopen : after.openStyle = level.openStyle) (hdepth : after.depth = level.depth) :
    nests level run ⟨.ok after, end_, [], events⟩ := by
  have hlines : ∀ line ∈ ([] : List Line), line.isAside = true := fun _ h =>
    absurd h List.not_mem_nil
  exact of_isAside hlines hopen hdepth

theorem of_error {level : Level} {run end_ : Run} {failure : Failure} {blocks : List Block}
    {events : List Event} : nests level run ⟨.error failure, end_, blocks, events⟩ :=
  Contract.ofSuccess.of_error

theorem basic : nests.Basic where
  still _ _ := of_silent rfl rfl
  inSequence hfirst hnext := inSequence hfirst hnext
  failing _ _ _ := of_error
  reporting _ _ _ _ := of_silent rfl rfl
  changing _ _ _ _ := of_silent rfl rfl
  entering _ _ _ _ _ _ _ := of_silent rfl rfl
  writing _ _ _ hlines := of_isAside hlines rfl rfl

theorem closeRun : nests.Holds Level.closeRun := by
  intro level run after hafter hlevel
  rw [Level.result_closeRun, Except.ok.injEq] at hafter
  subst hafter
  refine ⟨fun _ h => absurd h (by simp), rfl, fun outer => ?_⟩
  cases hopen : level.openStyle with
  | none =>
    rw [Level.closeRun, hopen, Level.openLists_of_none hopen]
    exact .nil outer
  | some style =>
    -- the list that the level knows of is the innermost one, so it is the one to close
    obtain ⟨environment, henvironment⟩ := Option.isSome_iff_exists.mp (hlevel style hopen)
    rw [Level.closeRun, hopen, Level.openLists_of_some hopen]
    simp only [henvironment]
    exact .closing henvironment (.nil outer)

/-- The list that a line of some style belongs to is opened, after another one is closed. -/
theorem settleRun (style : Style) (source : String) :
    nests.Holds fun level => level.settleRun style source := by
  intro level run
  simp only [Level.settleRun_eq]
  refine inSequence ?_ fun middle _ => ?_
  · by_cases hother : level.openStyle.any (· != style) = true
    · rw [if_pos hother]
      exact closeRun level run
    · rw [if_neg hother]
      exact of_silent rfl rfl
  · rw [Level.openRun]
    cases henvironment : style.environment with
    | none => exact of_silent rfl rfl
    | some environment =>
      cases hopen : middle.openStyle with
      | some current => exact of_silent rfl rfl
      | none =>
        intro after hafter _
        obtain rfl : { middle with openStyle := some style } = after := Except.ok.inj hafter
        refine ⟨?_, rfl, fun outer => ?_⟩
        · rintro other hother
          obtain rfl : style = other := Option.some.inj hother
          rw [henvironment, Option.isSome_some]
        · rw [Level.openLists_of_none hopen]
          exact .opening henvironment (.nil _)

theorem switchStyles (styles : StyleStack) (temporary : Bool) :
    nests.Holds fun level => level.switchStyles styles temporary := by
  intro level run
  unfold Level.switchStyles
  refine inSequence (closeRun level run) fun middle _ => ?_
  split <;> exact of_silent rfl rfl

theorem restoreTemporary : nests.Holds Level.restoreTemporary := by
  intro level run
  rw [Level.restoreTemporary]
  cases level.pending with
  | none => exact of_silent rfl rfl
  | some styles =>
    by_cases hused : (!level.temporaryUsed) = true
    · simp only [if_pos hused]
      exact of_silent rfl rfl
    · simp only [if_neg hused]
      exact inSequence (closeRun level run) fun middle _ => of_silent rfl rfl

/-- A line is written after the list that it belongs to was opened. -/
theorem content (style : Style) (source : String) (address : Option String) (value : String)
    (next : Option Node) : nests.Holds fun level => do
      let settled ← level.settleRun style source
      emit (.content (settled.textLine style source address value next))
      return settled.pastLine value := by
  intro level run
  refine inSequence (settleRun style source level run) fun settled hsettled => ?_
  intro after hafter hsettledEnvironment
  obtain ⟨inMath, hpast⟩ := settled.exists_pastLine value
  obtain rfl : { settled with inMath } = after := hpast ▸ Except.ok.inj hafter
  refine ⟨hsettledEnvironment, rfl, fun outer => ?_⟩
  -- settling left the list of the style open, whatever was open before
  refine .content (fun henvironment => ?_) (.nil _)
  have hopen : settled.openStyle = some style := by
    have henvironment : style.environment.isSome = true := henvironment
    rw [Level.result_settleRun, if_pos henvironment] at hsettled
    rw [← Except.ok.inj hsettled]
  rw [Level.openLists_of_some hopen]
  rfl

theorem writeLine (source : String) (address value : Option String) (next : Option Node) :
    nests.Holds fun level => level.writeLine source address value next :=
  basic.writeLine restoreTemporary (fun style value => content style source address value next) value

/-- A level within a level closes what it opened, and leaves the list around it alone. -/
theorem enclosing {level : Level} {wrap : List Block → Block} {depth : Nat}
    {step : Level → Rendering Level} (run : Run) (hwrap : Enclosure level.depth wrap depth)
    (hstep : nests.Holds step) : nests level run (level.enclose wrap depth step run) := by
  intro after hafter hlevel
  obtain ⟨inner, hinner, rfl⟩ := Level.of_enclose hafter
  have hclosed : inner.openStyle = none := by
    obtain ⟨last, -, hlast⟩ := result_bind_eq_ok.mp hinner
    rw [Level.result_closeRun, Except.ok.injEq] at hlast
    rw [← hlast]
  obtain ⟨-, -, hlines⟩ := basic.bind hstep closeRun (.fresh depth level.setting) run inner hinner
    fun style hstyle => absurd hstyle (by simp [Level.fresh])
  refine ⟨hlevel, rfl, fun outer => ?_⟩
  -- the list of the level around is one more of the lists that are open around the inner level
  have hinside := hlines (level.openLists ++ outer)
  rw [Level.openLists_fresh, Level.openLists_of_none hclosed, List.nil_append, ← hwrap.linesOf]
    at hinside
  rw [Level.blocks_enclose]
  exact hinside

/-- Reading a style code writes nothing. -/
theorem update {next : StyleStack → Level → Rendering Level}
    (hnext : ∀ styles, nests.Holds (next styles)) (source code : String) (temporary : Bool) :
    nests.Holds fun level => (do
      let styles ← ofExcept (level.styles.update level.depth code)
      report (.switched source styles temporary)
      next styles level) := by
  intro level run
  exact basic.afterOfExcept fun styles _ => basic.afterReport rfl (hnext styles level run)

/-- The contract of nesting is elementary. -/
theorem elementary : nests.Elementary where
  toBasic := basic
  escaping _ _ _ := of_silent rfl rfl
  switching source _ := update (fun styles => switchStyles styles _) source _ _
  closing := closeRun
  content := writeLine
  enclosing := enclosing

end nests

/-! ## Operations on a level -/

/-- What can be done with a level from outside: render siblings on it, dispatch a node
without going on after the verdict, render a node with a value of its own, switch styles or
leave them, undo a temporary switch, close the list that is open, and render an outline in
the place of a directive without adopting what is in force behind it. -/
inductive Operation
  | siblings (nodes : List Node)
  | dispatch (node : Node)
  | line (node : Node) (value : Option String) (next : Option Node)
  | switch (styles : Option StyleStack) (temporary : Bool)
  | restore
  | close
  | outline (path : Path) (setting : Setting)

namespace Operation

variable (world : World) (enter : Entering)

/-- Carries out an operation. -/
def perform : Operation → Level → Rendering Level
  | .siblings nodes, level => renderSiblings world enter nodes level
  | .dispatch node, level => do
    let _ ← OutlineTex.dispatch world enter level node
    return level
  | .line node value next, level => renderLine world enter node value next level
  | .switch none _, level => pure level
  | .switch (some styles) temporary, level => level.switchStyles styles temporary
  | .restore, level => level.restoreTemporary
  | .close, level => level.closeRun
  | .outline path setting, level => do
    let _ ← enter path level.depth setting
    return level

/-- Carries out operations one after the other. -/
def performAll : List Operation → Level → Rendering Level
  | [], level => pure level
  | operation :: rest, level => do
    let level ← operation.perform world enter level
    performAll rest level

theorem performAll_append (first second : List Operation) (level : Level) :
    performAll world enter (first ++ second) level =
      performAll world enter first level >>= performAll world enter second := by
  induction first generalizing level with
  | nil => rw [List.nil_append, performAll, pure_bind]
  | cons operation rest ih =>
    rw [List.cons_append, performAll, performAll, bind_assoc]
    exact bind_congr fun level => ih level

end Operation

namespace nests

variable (world : World) {enter : Entering}

/-- What is in force behind a step need not be adopted, and the step need not begin with what
is in force on the level: the lists are the same. -/
theorem forgetting {step : Rendering Setting} {level other : Level} {run : Run}
    (hopen : other.openStyle = level.openStyle) (hdepth : other.depth = level.depth)
    (hstep : nests other run ((do let setting ← step; return other.adopt setting) run)) :
    nests level run ((do let _ ← step; return level) run) := by
  intro after hafter hlevel
  obtain ⟨behind, hbehind, hstill⟩ := result_bind_eq_ok.mp hafter
  obtain rfl : level = after := Except.ok.inj hstill
  obtain ⟨-, -, hlines⟩ := hstep (other.adopt behind)
    (result_bind_eq_ok.mpr ⟨behind, hbehind, rfl⟩) fun style hstyle => hlevel style (hopen ▸ hstyle)
  refine ⟨hlevel, rfl, fun outer => ?_⟩
  have hnested := hlines outer
  rw [Level.openLists_adopt, Level.openLists, hopen, hdepth, ← Level.openLists] at hnested
  rw [then_of_ok hbehind] at hnested ⊢
  exact hnested

/-- A verdict that is not followed leaves the level as it is, even if it came with other
styles. -/
theorem resumes_still : nests.Resumes fun level _ => pure level where
  proceed _ _ _ := of_silent rfl rfl
  done _ _ := of_silent rfl rfl
  escaping _ _ _ := of_silent rfl rfl
  styles source _ := update (fun _ _ _ => of_silent rfl rfl) source _ _
  included _ hstep level run := forgetting rfl rfl (hstep level run)

/-- Every operation keeps the lists nested. -/
theorem perform (henter : nests.Enters enter) (operation : Operation) :
    nests.Holds (operation.perform world enter) := by
  cases operation with
  | siblings nodes => exact elementary.renderSiblings world henter nodes
  | dispatch node => exact elementary.dispatch world henter resumes_still node
  | line node value next =>
    exact elementary.renderLine world (elementary.renderNodes world henter node.subtree) value next
  | switch styles temporary =>
    cases styles with
    | none => exact elementary.still
    | some styles => exact switchStyles styles temporary
  | restore => exact restoreTemporary
  | close => exact closeRun
  | outline path setting =>
    intro level run
    exact forgetting rfl rfl (henter path (level.adopt setting) run)

theorem performAll (henter : nests.Enters enter) (operations : List Operation) :
    nests.Holds (Operation.performAll world enter operations) := by
  induction operations with
  | nil => exact elementary.still
  | cons operation rest ih => exact basic.bind (perform world henter operation) ih

end nests

/-- **Lists are well nested.** Whatever sequence of operations succeeds on a fresh level,
every list that is closed is the one opened last of those still open, and every line whose
style has an environment stands in a list of its own depth and style. At the end the list
that the level knows of is open and no other, and after rendering siblings none is. -/
theorem nested_performAll (world : World) (nesting : Nat) (operations : List Operation)
    (depth : Nat) (setting : Setting) (run : Run) (after : Level)
    (h : (Operation.performAll world (enterOutline world nesting) operations
      (.fresh depth setting) run).result = .ok after) :
    Nested [] (Block.linesOf (Operation.performAll world (enterOutline world nesting) operations
        (.fresh depth setting) run).blocks) (after.openStyle.toList.map (⟨depth, ·⟩)) ∧
      ∀ before nodes, operations = before ++ [.siblings nodes] → after.openStyle = none := by
  have henter := nests.elementary.enterOutline world nesting
  obtain ⟨-, hdepth, hlines⟩ := nests.performAll world henter operations _ run after h
    fun style hstyle => absurd hstyle (by simp [Level.fresh])
  refine ⟨?_, ?_⟩
  · have hnested := hlines []
    rw [Level.openLists_fresh, List.nil_append, List.append_nil, Level.openLists, hdepth] at hnested
    exact hnested
  · rintro before nodes rfl
    rw [Operation.performAll_append] at h
    obtain ⟨middle, -, hlast⟩ := result_bind_eq_ok.mp h
    obtain ⟨rendered, hrendered, hstill⟩ := result_bind_eq_ok.mp hlast
    obtain rfl : rendered = after := Except.ok.inj hstill
    obtain ⟨open_, -, hclosed⟩ := result_bind_eq_ok.mp hrendered
    rw [Level.result_closeRun, Except.ok.injEq] at hclosed
    rw [← hclosed]

/-- A world with one outline, of two lines one below the other. -/
def listingWorld : World :=
  { files := ⟨[], [(["a.otl"], .file [120, 10, 9, 121])]⟩ }

/-- Items, the first with one below it, and an outline and a line that are numbered; then an
item whose list stays open. -/
def listing : List Operation :=
  [.siblings [{ value := some "a", children := [{ value := some "b" }] },
      { value := some "!tmpformat E" }, { value := some "!include a.otl" }, { value := some "c" }],
    .line { value := some "d" } (some "d") none]

theorem nested_performAll_listing :
    let item := Style.list "I" "itemize"
    let outcome := Operation.performAll listingWorld (enterOutline listingWorld 1) listing
      (.fresh 0 ⟨⟨[item]⟩, true⟩) {}
    let after : Level := { depth := 0, styles := ⟨[item]⟩, openStyle := some item }
    outcome.result = .ok after ∧ Nested [] (Block.linesOf outcome.blocks) [⟨0, item⟩] := by
  intro item outcome after
  have hafter : outcome.result = .ok after := by decide +kernel
  exact ⟨hafter, (nested_performAll listingWorld 1 listing 0 _ {} after hafter).1⟩

end OutlineTex
