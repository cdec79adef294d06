/-
An outline in the place of its directive.

To include an outline is to render its nodes where the directive stands, but on a level of their
own. That level begins with what is in force on the level of the directive and gives back what is
in force at its end, and it shares nothing else with it: neither the list that is open, nor the
state of math, nor the switch that is to be undone, nor the look at the node that comes next. This
file shows that where none of these makes a difference, the nodes of the outline may as well be
written in the place of the directive. All that is missing then is the comment that repeats it.

In front of the directive there is a level that is as good as new, so it does not matter whether
the nodes are rendered on it or on a new one. Behind the last of the nodes there is again such a
level, and so it does not matter which of the two levels goes on.
-/
import OutlineTex.Proofs.Inclusion.Termination
import OutlineTex.Proofs.Rendering.Listless

set_option autoImplicit false

namespace OutlineTex

open OutlineTex.Text
open Rendering

/-! ## Nothing to be undone -/

/-- Siblings that switch no styles for one line leave nothing to be undone where nothing was. -/
theorem pending_of_renderNodes {world : World} {nesting : Nat} {nodes : List Node}
    {level after : Level} {run : Run}
    (hpermanent : ∀ node ∈ nodes, ∀ code,
      node.value.bind Directive.ofValue? ≠ some (.format true code))
    (hpending : level.pending = none)
    (hafter : (renderNodes world (enterOutline world nesting) nodes level run).result =
      .ok after) : after.pending = none := by
  induction nodes generalizing level run with
  | nil =>
    obtain rfl : level = after := Except.ok.inj hafter
    exact hpending
  | cons node rest ih =>
    rw [renderNodes] at hafter
    obtain ⟨middle, hmiddle, hrest⟩ := result_bind_eq_ok.mp hafter
    let turn : Turn := ⟨⟨level, run, node⟩, rest.head?⟩
    have hnothing : turn.level.undoing = none := Option.map_eq_none_iff.mpr hpending
    have hundoing : middle.undoing = Undoing.past turn.level.undoing turn :=
      Turn.undoing_after hmiddle
    have hpast : Undoing.past none turn = none := by
      unfold Undoing.past
      split
      · next hdirective => exact absurd hdirective (hpermanent node List.mem_cons_self _)
      · split <;> rfl
    rw [hnothing, hpast] at hundoing
    exact ih (fun other hother => hpermanent other (List.mem_cons_of_mem node hother))
      (Option.map_eq_none_iff.mp hundoing) hrest

/-! ## A level within a level that is as good as new -/

/-- Where a level is as good as new, and is so again behind a step, it does not matter for the step
that it is taken on a level within the level. -/
theorem Level.enclose_eq_within {level : Level} {step : Level → Rendering Level} {run : Run}
    (wrap : List Block → Block) (hnew : level = fresh level.depth level.setting)
    (hlast : ∀ last, (step level run).result = .ok last →
      last = fresh level.depth last.setting) :
    level.enclose wrap level.depth step run = within wrap (step level) run := by
  -- there is no list to be closed
  have hclosed : (step level >>= closeRun) run = step level run := by
    have hpure : (step level >>= closeRun) run = (step level >>= pure) run := by
      refine then_congr fun last hok => ?_
      rw [hlast last hok]
      rfl
    rw [hpure, bind_pure]
  have hwithin : within wrap (step level >>= closeRun) run = within wrap (step level) run := by
    rw [within, within, hclosed]
  have hadopt : (within wrap (step level >>= closeRun) >>= fun inner =>
      (pure (level.adopt inner.setting) : Rendering Level)) run =
        (within wrap (step level >>= closeRun) >>= pure) run := by
    refine then_congr fun inner hok => ?_
    rw [hwithin] at hok
    rw [hnew, hlast inner hok]
    rfl
  rw [enclose, ← hnew, hadopt, bind_pure, hwithin]

/-! ## Lines behind one line more -/

/-- Outcomes with the same value or failure and the same run, where the lines of the first are
those of the second behind one line more. -/
structure Outcome.Repeats {α : Type} (echo : Line) (first second : Outcome α) : Prop where
  result : first.result = second.result
  run : first.run = second.run
  lines : Block.linesOf first.blocks = echo :: Block.linesOf second.blocks

/-- What follows does not tell whether there was one line more. -/
theorem Outcome.Repeats.andThen {α β : Type} {echo : Line} {first second : Outcome α}
    (h : first.Repeats echo second) (next : α → Rendering β) :
    (first.andThen next).Repeats echo (second.andThen next) := by
  obtain ⟨hresult, hrun, hlines⟩ := h
  unfold Outcome.andThen
  rw [hresult, hrun]
  cases second.result with
  | error failure => exact ⟨rfl, rfl, hlines⟩
  | ok a =>
    refine ⟨rfl, rfl, ?_⟩
    dsimp only
    rw [Block.linesOf_append, Block.linesOf_append, hlines, List.cons_append]

/-- What comes out of a step did not fail for want of room. -/
def Outcome.Ends {α : Type} (outcome : Outcome α) : Prop :=
  ∀ failure, outcome.result = .error failure → failure.isEndless = false

theorem Outcome.Ends.of_part {α β : Type} {part : Outcome α} {whole : Outcome β} (h : whole.Ends)
    (hpart : part.IsPartOf whole) : part.Ends :=
  fun failure hfailure => h failure (hpart.failure failure hfailure)

/-! ## A directive and the nodes in its place -/

/-- An outline that a directive among siblings includes, whether or not it was included before. The
nodes of the outline can be written in the place of the directive: no line before them goes on in
them, none of them goes on behind them, and none switches the styles for one line. -/
structure Splice (world : World) where
  before : List Node
  node : Node
  after : List Node
  name : String
  /-- The nodes of the outline. -/
  inside : List Node
  directive : node.value.bind Directive.ofValue? = some (.inclusion false [name])
  outline : world.isOutlineName name = true
  read : world.readOutline (includedPath node.source name) = .ok inside
  head_inside : Node.isContinuation (inside.head?.bind (·.value)) = false
  head_after : Node.isContinuation (after.head?.bind (·.value)) = false
  permanent : ∀ other ∈ inside, ∀ code,
    other.value.bind Directive.ofValue? ≠ some (.format true code)

namespace Splice

variable {world : World} (splice : Splice world)

/-- The path of the outline. -/
def path : Path :=
  includedPath splice.node.source splice.name

/-- The place of the outline. -/
def place : Location :=
  splice.path.resolve world.files.cwd

/-- The siblings with the directive. -/
def including : List Node :=
  splice.before ++ splice.node :: splice.after

/-- The siblings with the nodes of the outline in the place of the directive. -/
def inPlace : List Node :=
  splice.before ++ (splice.inside ++ splice.after)

/-- The comment that repeats the directive. -/
def echo (depth : Nat) : Line :=
  .echo depth (splice.node.value.getD "")

/-- No line goes on in a directive. -/
theorem head_including :
    Node.isContinuation ((splice.node :: splice.after).head?.bind (·.value)) = false :=
  Directive.isContinuation_of_bind splice.directive

theorem head_inPlace :
    Node.isContinuation ((splice.inside ++ splice.after).head?.bind (·.value)) = false := by
  cases hinside : splice.inside with
  | nil => exact splice.head_after
  | cons first rest =>
    have hhead := splice.head_inside
    rw [hinside] at hhead
    exact hhead

variable {room : Nat} {run : Run}

variable (room) in
/-- A registered outline is entered without being registered again. -/
theorem includeFile_eq_enclose (hmarked : splice.place ∈ run.included) (level : Level) :
    (do
      let setting ← includeFile world (enterOutline world (room + 1)) splice.node.source level.depth
        false splice.name level.setting
      return level.adopt setting) run = (do
      report (.enteredOutline false splice.place splice.path level.depth)
      level.enclose (.outline splice.path) level.depth
        (renderNodes world (enterOutline world room) splice.inside)) run := by
  -- only a file that is to be included once could be skipped
  have hmark : run.mark splice.place = run := if_pos (List.contains_iff_mem.mpr hmarked)
  have hput : includeFile world (enterOutline world (room + 1)) splice.node.source level.depth
      false splice.name level.setting run = (do
        report (.enteredOutline false splice.place splice.path level.depth)
        enterOutline world (room + 1) splice.path level.depth level.setting) run := by
    obtain ⟨hnul, -⟩ | ⟨honce, -⟩ | ⟨-, hput⟩ := includeFile_eq world
      (enterOutline world (room + 1)) splice.node.source level.depth false splice.name
      level.setting run
    · exact absurd ((World.hasNul_of_readOutline splice.read).symm.trans hnul) Bool.false_ne_true
    · exact absurd honce Bool.false_ne_true
    · rw [hput, ← path, ← place, hmark, putIn, if_pos splice.outline]
      rfl
  have henter : enterOutline world (room + 1) splice.path level.depth level.setting = (do
      let inner ← within (.outline splice.path) <| renderSiblings world (enterOutline world room)
        splice.inside (.fresh level.depth level.setting)
      return inner.setting) := by
    rw [enterOutline, path, splice.read]
    rfl
  calc (do
      let setting ← includeFile world (enterOutline world (room + 1)) splice.node.source level.depth
        false splice.name level.setting
      return level.adopt setting) run
      = ((do
        report (.enteredOutline false splice.place splice.path level.depth)
        enterOutline world (room + 1) splice.path level.depth level.setting) >>=
          fun setting => (pure (level.adopt setting) : Rendering Level)) run :=
        congrArg (Outcome.andThen · fun setting => (pure (level.adopt setting) : Rendering Level))
          hput
    _ = (do
      report (.enteredOutline false splice.place splice.path level.depth)
      level.enclose (.outline splice.path) level.depth
        (renderNodes world (enterOutline world room) splice.inside)) run := by
      rw [henter]
      simp only [bind_assoc, pure_bind]
      rfl

/-- Where the outline is registered already, the directive is the outline rendered on a level of
its own, behind the comment that repeats the directive. -/
theorem renderNode_eq_enclose (hmarked : splice.place ∈ run.included) (next : Option Node)
    (level : Level) :
    renderNode world (enterOutline world (room + 1)) next splice.node level run =
      let inner := level.enclose (.outline splice.path) level.depth
        (renderNodes world (enterOutline world room) splice.inside) run
      { inner with
        blocks := .line (splice.echo level.depth) :: inner.blocks
        events := .recognised splice.node (.inclusion false [splice.name]) ::
          .enteredOutline false splice.place splice.path level.depth :: inner.events } := by
  have hfile := (splice.includeFile_eq_enclose room hmarked level).trans (then_of_ok rfl)
  rw [renderNode_inclusion _ _ splice.directive, then_of_ok rfl, then_of_ok rfl]
  simp only [includeFiles, bind_assoc, pure_bind]
  -- what is left is the file, behind what is reported and written before it
  exact congrArg (fun file : Outcome Level =>
    { file with
      blocks := .line (splice.echo level.depth) :: file.blocks
      events := .recognised splice.node (.inclusion false [splice.name]) :: file.events }) hfile

/-- On a level that is as good as new, and is so again behind the nodes of the outline, the
directive and the nodes in its place come to the same but for the comment. -/
theorem repeats {level : Level} (hmarked : splice.place ∈ run.included)
    (hnew : level = .fresh level.depth level.setting)
    (hroom : renderNodes world (enterOutline world (room + 1)) splice.inside level run =
      renderNodes world (enterOutline world room) splice.inside level run)
    (hlast : ∀ last, (renderNodes world (enterOutline world room) splice.inside level run).result =
      .ok last → last = .fresh level.depth last.setting) :
    (renderSiblings world (enterOutline world (room + 1)) (splice.node :: splice.after) level
      run).Repeats (splice.echo level.depth)
      (renderSiblings world (enterOutline world (room + 1)) (splice.inside ++ splice.after) level
        run) := by
  have hnode : (renderNode world (enterOutline world (room + 1)) splice.after.head? splice.node
      level run).Repeats (splice.echo level.depth)
      (renderNodes world (enterOutline world (room + 1)) splice.inside level run) := by
    rw [splice.renderNode_eq_enclose hmarked, hroom, Level.enclose_eq_within _ hnew hlast]
    have hwrap : Enclosure level.depth (.outline splice.path) level.depth := .included splice.path
    exact ⟨rfl, rfl, congrArg (splice.echo level.depth :: ·) (hwrap.linesOf _)⟩
  rw [renderSiblings_append _ _ _ splice.head_after, renderSiblings_cons]
  exact hnode.andThen _

variable (world) in
/-- What comes out of rendering siblings on a new level, in a room of so many outlines within one
another. -/
def fromNew (room : Nat) (nodes : List Node) (depth : Nat) (setting : Setting) (run : Run) :
    Outcome Level :=
  renderSiblings world (enterOutline world room) nodes (.fresh depth setting) run

/-- What comes out of the siblings before the directive. -/
def upTo (room depth : Nat) (setting : Setting) (run : Run) : Outcome Level :=
  renderNodes world (enterOutline world room) splice.before (.fresh depth setting) run

/-- What is asked for where the directive stands and behind the nodes of the outline. -/
structure Seamless (room depth : Nat) (setting : Setting) (run : Run) : Prop where
  /-- Neither the styles in the beginning nor any code that is reached spell a list. -/
  styles : setting.styles.Listless
  codes : (fromNew world room splice.including depth setting run).Listless
  /-- Where the directive stands nothing is to be undone, no math is open, and the outline is
  registered. -/
  border : ∀ level, (splice.upTo room depth setting run).result = .ok level →
    level.pending = none ∧ level.inMath = false ∧
      splice.place ∈ (splice.upTo room depth setting run).run.included
  /-- The nodes of the outline leave no math open. -/
  inside : ∀ level last, (splice.upTo room depth setting run).result = .ok level →
    (renderNodes world (enterOutline world room) splice.inside (.fresh depth level.setting)
      (splice.upTo room depth setting run).run).result = .ok last → last.inMath = false

variable {splice} {depth : Nat} {setting : Setting} {level : Level}

namespace Seamless

variable (h : splice.Seamless (room + 1) depth setting run)
  (hlevel : (splice.upTo (room + 1) depth setting run).result = .ok level)

/-- The siblings before the directive are part of all siblings. -/
theorem upTo_isPartOf : (splice.upTo (room + 1) depth setting run).IsPartOf
    (fromNew world (room + 1) splice.including depth setting run) := by
  rw [fromNew, including, renderSiblings_append _ _ _ splice.head_including]
  exact .of_first

include h hlevel

/-- Where the directive stands, the level has no lists. -/
theorem level_listless : level.Listless :=
  listless.renderNodes (listless.enterOutline (room + 1)) splice.before _ run
    (Level.listless_fresh h.styles depth) (h.codes.of_part upTo_isPartOf) level hlevel

/-- It is as good as new. -/
theorem eq_fresh : level = .fresh depth level.setting := by
  obtain ⟨hpending, hmath, -⟩ := h.border level hlevel
  have hdepth : level.depth = depth :=
    (scopes.elementary.renderNodes world (scopes.elementary.enterOutline world (room + 1))
      splice.before _ run level hlevel).1
  rw [← hdepth]
  exact Level.eq_fresh (h.level_listless hlevel) hpending hmath

/-- So what comes out of the nodes of the outline there is part of what comes out of the
directive. -/
theorem inside_isPartOf :
    (renderNodes world (enterOutline world room) splice.inside level
      (splice.upTo (room + 1) depth setting run).run).IsPartOf
      (fromNew world (room + 1) splice.including depth setting run) := by
  -- the nodes are rendered on a level within the directive, and that in front of what follows it
  have hinner := Outcome.IsPartOf.of_enclose level (.outline splice.path) level.depth
    (renderNodes world (enterOutline world room) splice.inside)
    (splice.upTo (room + 1) depth setting run).run
  have hnew : level = .fresh level.depth level.setting := by
    rw [h.eq_fresh hlevel]
    rfl
  rw [← hnew] at hinner
  have hnode : (renderNodes world (enterOutline world room) splice.inside level
      (splice.upTo (room + 1) depth setting run).run).IsPartOf
      (renderNode world (enterOutline world (room + 1)) splice.after.head? splice.node level
        (splice.upTo (room + 1) depth setting run).run) := by
    rw [splice.renderNode_eq_enclose (h.border level hlevel).2.2]
    exact hinner.trans ⟨fun _ hevent => List.mem_cons_of_mem _ (List.mem_cons_of_mem _ hevent),
      fun _ => id⟩
  have hrest : (renderNode world (enterOutline world (room + 1)) splice.after.head? splice.node
      level (splice.upTo (room + 1) depth setting run).run).IsPartOf
      (renderSiblings world (enterOutline world (room + 1)) (splice.node :: splice.after) level
        (splice.upTo (room + 1) depth setting run).run) := by
    rw [renderSiblings_cons]
    exact .of_first
  rw [fromNew, including, renderSiblings_append _ _ _ splice.head_including]
  exact hnode.trans (hrest.trans (.of_next hlevel))

/-- The nodes of the outline end in the room that is left inside it, if all siblings do, or if they
do with the nodes in the place of the directive. -/
theorem inside_ends
    (hends : (fromNew world (room + 1) splice.including depth setting run).Ends ∨
      (fromNew world room splice.inPlace depth setting run).Ends) :
    (renderNodes world (enterOutline world room) splice.inside level
      (splice.upTo (room + 1) depth setting run).run).Ends := by
  rcases hends with hends | hends
  · exact hends.of_part (h.inside_isPartOf hlevel)
  · rw [fromNew, inPlace, renderSiblings_append _ _ _ splice.head_inPlace] at hends
    -- the siblings before the directive are the same in either room
    have hbefore : splice.upTo (room + 1) depth setting run = splice.upTo room depth setting run :=
      roomier.renderNodes world (Nat.le_succ room) splice.before _ run (hends.of_part .of_first)
    rw [hbefore] at hlevel ⊢
    have hrest : (renderSiblings world (enterOutline world room) (splice.inside ++ splice.after)
        level (splice.upTo room depth setting run).run).Ends :=
      hends.of_part (.of_next hlevel)
    rw [renderSiblings_append _ _ _ splice.head_after] at hrest
    exact hrest.of_part .of_first

/-- So they are rendered in that room as they are in the place of the directive. -/
theorem inside_eq
    (hends : (fromNew world (room + 1) splice.including depth setting run).Ends ∨
      (fromNew world room splice.inPlace depth setting run).Ends) :
    renderNodes world (enterOutline world (room + 1)) splice.inside level
        (splice.upTo (room + 1) depth setting run).run =
      renderNodes world (enterOutline world room) splice.inside level
        (splice.upTo (room + 1) depth setting run).run :=
  roomier.renderNodes world (Nat.le_succ room) splice.inside level _ (h.inside_ends hlevel hends)

/-- Behind the nodes of the outline, the level is as good as new again. -/
theorem inside_eq_fresh {last : Level}
    (hends : (fromNew world (room + 1) splice.including depth setting run).Ends ∨
      (fromNew world room splice.inPlace depth setting run).Ends)
    (hlast : (renderNodes world (enterOutline world room) splice.inside level
      (splice.upTo (room + 1) depth setting run).run).result = .ok last) :
    last = .fresh level.depth last.setting := by
  have hlistless : last.Listless := listless.renderNodes (listless.enterOutline room) splice.inside
    _ _ (h.level_listless hlevel) (h.codes.of_part (h.inside_isPartOf hlevel)) last hlast
  have hdepth : last.depth = level.depth :=
    (scopes.elementary.renderNodes world (scopes.elementary.enterOutline world room) splice.inside
      _ _ last hlast).1
  have hpending : last.pending = none :=
    pending_of_renderNodes splice.permanent (h.border level hlevel).1 hlast
  have hmath : last.inMath = false := by
    refine h.inside level last hlevel ?_
    rw [← h.eq_fresh hlevel, h.inside_eq hlevel hends]
    exact hlast
  rw [← hdepth]
  exact Level.eq_fresh hlistless hpending hmath

end Seamless

end Splice

/-! ## Siblings -/

/-- **An outline in place.** Take siblings with a plain inclusion of an outline, none of whose nodes
at the top switches the styles for one line. No line continues another across the borders of the
outline. No style in the beginning and in no code that is reached is that of a list; where the
directive stands nothing is to be undone and no math is open, and the outline leaves none open; the
outline is registered already. If either rendering ends, then with the nodes of the outline in the
place of the directive everything ends in the same way, on the same level or with the same failure
and in the same run, and the lines are the same but for the one that repeats the directive. -/
theorem renderSiblings_inPlace {world : World} (splice : Splice world) {room depth : Nat}
    {setting : Setting} {run : Run} (h : splice.Seamless (room + 1) depth setting run)
    (hends : (Splice.fromNew world (room + 1) splice.including depth setting run).Ends ∨
      (Splice.fromNew world room splice.inPlace depth setting run).Ends) :
    let before := splice.upTo (room + 1) depth setting run
    let including := Splice.fromNew world (room + 1) splice.including depth setting run
    let inPlace := Splice.fromNew world (room + 1) splice.inPlace depth setting run
    including.result = inPlace.result ∧ including.run = inPlace.run ∧
      ∀ level, before.result = .ok level → ∃ behind,
        Block.linesOf inPlace.blocks = Block.linesOf before.blocks ++ behind ∧
        Block.linesOf including.blocks =
          Block.linesOf before.blocks ++ splice.echo depth :: behind := by
  intro before including inPlace
  have hincluding : including = before.andThen (renderSiblings world
      (enterOutline world (room + 1)) (splice.node :: splice.after)) := by
    show Splice.fromNew _ _ _ _ _ _ = _
    rw [Splice.fromNew, Splice.including, renderSiblings_append _ _ _ splice.head_including]
    rfl
  have hinPlace : inPlace = before.andThen (renderSiblings world
      (enterOutline world (room + 1)) (splice.inside ++ splice.after)) := by
    show Splice.fromNew _ _ _ _ _ _ = _
    rw [Splice.fromNew, Splice.inPlace, renderSiblings_append _ _ _ splice.head_inPlace]
    rfl
  rw [hincluding, hinPlace]
  cases hbefore : before.result with
  | error failure =>
    -- the directive is not reached
    simp [Outcome.andThen, hbefore]
  | ok level =>
    have hdepth : level.depth = depth := by
      rw [h.eq_fresh hbefore]
      rfl
    have hnew : level = .fresh level.depth level.setting := by
      rw [hdepth]
      exact h.eq_fresh hbefore
    obtain ⟨hresult, hrun, hlines⟩ := splice.repeats (h.border level hbefore).2.2 hnew
      (h.inside_eq hbefore hends) fun last hlast => h.inside_eq_fresh hbefore hends hlast
    rw [hdepth] at hlines
    simp only [Outcome.andThen, hbefore]
    refine ⟨hresult, hrun, fun _ _ => ⟨_, Block.linesOf_append _ _, ?_⟩⟩
    rw [Block.linesOf_append]
    exact congrArg (Block.linesOf before.blocks ++ ·) hlines

/-- A world with one outline, which switches the styles to paragraphs and has two lines. -/
def quotedWorld : World :=
  { files := ⟨[], [(["p.otl"], .file (Utf8.encode "!format P\nx $a$\n\ty"))]⟩ }

theorem readOutline_quotedWorld :
    quotedWorld.readOutline (includedPath "t:2" "p.otl") = .ok [⟨some "!format P", "p.otl:1", []⟩,
      ⟨some "x $a$", "p.otl:2", [⟨some "y", "p.otl:3", []⟩]⟩] := by
  have hlines : quotedWorld.files.readLines (includedPath "t:2" "p.otl") =
      .ok ["!format P".toList, "x $a$".toList, "\ty".toList] := by
    decide +kernel
  rw [World.readOutline, hlines]
  rfl

theorem permanent_quotedWorld {value : Option String} (h : value ∈ [some "!format P", some "x $a$"])
    (code : String) : value.bind Directive.ofValue? ≠ some (.format true code) := by
  have hall : ∀ value ∈ [some "!format P", some "x $a$"],
      value.bind Directive.ofValue? ∈ [some (.format false "P"), none] := by
    decide +kernel
  intro hcode
  have hvalue := hall value h
  rw [hcode] at hvalue
  exact absurd hvalue (by simp)

theorem directive_quoted :
    Directive.ofValue? "!include p.otl" = some (.inclusion false ["p.otl"]) := by
  decide +kernel

/-- The outline between two lines. -/
def quoted : Splice quotedWorld where
  before := [⟨some "a", "t:1", []⟩]
  node := ⟨some "!include p.otl", "t:2", []⟩
  after := [⟨some "b", "t:3", []⟩]
  name := "p.otl"
  inside := [⟨some "!format P", "p.otl:1", []⟩,
    ⟨some "x $a$", "p.otl:2", [⟨some "y", "p.otl:3", []⟩]⟩]
  directive := directive_quoted
  outline := rfl
  read := readOutline_quotedWorld
  head_inside := rfl
  head_after := rfl
  permanent _ hother := permanent_quotedWorld (List.mem_map_of_mem hother)

/-- The lines are in no style, the run knows of the outline, and its math is closed. -/
theorem seamless_quoted :
    let setting : Setting := ⟨⟨[{ id := "N" }]⟩, true⟩
    let run : Run := { included := [["p.otl"]] }
    quoted.Seamless 2 0 setting run := by
  intro setting run
  have hbefore : (quoted.upTo 2 0 setting run).result = .ok (.fresh 0 setting) := by decide +kernel
  refine ⟨?_, ?_, fun level hlevel => ?_, fun level last hlevel hlast => ?_⟩
  · intro style hstyle
    obtain rfl := List.mem_singleton.mp hstyle
    rfl
  · intro node temporary code hmem styles hstyles
    have hrecognised : (Splice.fromNew quotedWorld 2 quoted.including 0 setting
        run).recognised.map Prod.snd = [.inclusion false ["p.otl"], .format false "P"] := by
      decide +kernel
    have hdirective := List.mem_map_of_mem (f := Prod.snd) hmem
    rw [hrecognised] at hdirective
    obtain ⟨-, rfl⟩ : temporary = false ∧ code = "P" := by simpa using hdirective
    have hcode : StyleStack.ofCode "P" = .ok ⟨[{ id := "P", after := "\\par" }]⟩ := by
      decide +kernel
    rw [← Except.ok.inj (hcode.symm.trans hstyles)]
    intro style hstyle
    obtain rfl := List.mem_singleton.mp hstyle
    rfl
  · obtain rfl := Except.ok.inj (hbefore.symm.trans hlevel)
    exact ⟨rfl, rfl, by decide +kernel⟩
  · obtain rfl := Except.ok.inj (hbefore.symm.trans hlevel)
    have hinside : (renderNodes quotedWorld (enterOutline quotedWorld 2) quoted.inside
        (.fresh 0 setting) (quoted.upTo 2 0 setting run).run).result =
          .ok (.fresh 0 ⟨⟨[{ id := "P", after := "\\par" }]⟩, true⟩) := by
      decide +kernel
    rw [← Except.ok.inj (hinside.symm.trans hlast)]
    rfl

theorem renderSiblings_inPlace_quoted :
    let setting : Setting := ⟨⟨[{ id := "N" }]⟩, true⟩
    let run : Run := { included := [["p.otl"]] }
    let including := Splice.fromNew quotedWorld 2 quoted.including 0 setting run
    let inPlace := Splice.fromNew quotedWorld 2 quoted.inPlace 0 setting run
    quoted.Seamless 2 0 setting run ∧ including.Ends ∧
      including.result = inPlace.result ∧ including.run = inPlace.run ∧
      (Block.linesOf inPlace.blocks).map Line.written =
        ["a % t:1", "x $a$\\par % p.otl:2", "\ty\\par % p.otl:3", "b\\par % t:3"] ∧
      (Block.linesOf including.blocks).map Line.written =
        ["a % t:1", "% !include p.otl", "x $a$\\par % p.otl:2", "\ty\\par % p.otl:3",
          "b\\par % t:3"] := by
  intro setting run including inPlace
  have hends : including.Ends := by
    have hok : including.result = .ok (.fresh 0 ⟨⟨[{ id := "P", after := "\\par" }]⟩, true⟩) := by
      decide +kernel
    exact fun failure hfailure => absurd (hok.symm.trans hfailure) (by simp)
  obtain ⟨hresult, hrun, -⟩ := renderSiblings_inPlace quoted seamless_quoted (.inl hends)
  exact ⟨seamless_quoted, hends, hresult, hrun, by decide +kernel, by decide +kernel⟩

end OutlineTex
