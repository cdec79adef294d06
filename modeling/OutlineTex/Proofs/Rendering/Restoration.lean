/-
What a temporary switch gives back.

A temporary switch is for one line, with the lines that continue it and whatever is below them. The
next line that leads brings back what was in force before the switch. What is brought back is not
worked out from the styles that are in force by then, because what is below the lines may have
changed these in any way. It is the very stack that the level kept aside at the switch, and no line
in between touches it. So it comes back as it was, at every depth.
-/
import OutlineTex.Proofs.Rendering.Switches

set_option autoImplicit false

namespace OutlineTex

open Rendering

/-! ## A line and what is below it -/

namespace Turn

variable {world : World} {nesting : Nat} {turn : Turn} {value : String}

/-- What comes of writing the line of a turn, before anything below it is rendered. -/
def writing (turn : Turn) : Outcome Level :=
  turn.level.writeLine turn.node.source turn.node.link? turn.text? turn.next turn.run

/-- Below its line, a turn goes on with the level that the line leaves. -/
def GoesOnWith (world : World) (nesting : Nat) (turn : Turn) (written : Level) : Prop :=
  turn.writing.result = .ok written ∧
    let below := renderBelow world (enterOutline world nesting) turn.node.subtree written
      turn.writing.run
    (turn.outcome world nesting).result = below.result ∧
      (turn.outcome world nesting).blocks = turn.writing.blocks ++ below.blocks

/-- If there is a style for its line, a turn with a text goes on with the styles of the level that
is ready for the line. -/
theorem exists_goesOnWith {style : Style} (hvalue : turn.text? = some value)
    (hstyle : (turn.level.ready value).styles.styleAt turn.level.depth = .ok style) :
    ∃ written, turn.GoesOnWith world nesting written ∧
      written.styles = (turn.level.ready value).styles := by
  obtain ⟨hresult, hblocks⟩ := outcome_of_text? world nesting hvalue
  obtain ⟨-, openStyle, inMath, hwritten⟩ := (turn.level.writeLine_ready turn.node.source
    turn.node.link? value turn.next turn.run).2 style hstyle
  refine ⟨{ turn.level.ready value with openStyle, inMath }, ⟨?_, ?_⟩, rfl⟩
  · rw [writing, hvalue]
    exact hwritten
  · rw [writing, hresult, hblocks, hvalue, renderLine, then_of_ok hwritten]
    exact ⟨rfl, rfl⟩

end Turn

/-! ## What is kept aside -/

/-- A level that is to undo a spent switch is ready for a line that leads when the switch is
undone. -/
theorem Level.styles_ready_of_spent {level : Level} {styles : StyleStack} {value : String}
    (h : level.undoing = some ⟨styles, true⟩)
    (hvalue : Node.isContinuation (some value) = false) : (level.ready value).styles = styles := by
  obtain ⟨kept, hpending, hkept⟩ := Option.map_eq_some_iff.mp h
  obtain ⟨rfl, hused⟩ := Undoing.mk.inj hkept
  rw [ready, hvalue, if_neg Bool.false_ne_true, undone, hpending]
  dsimp only
  rw [if_pos hused]

section Stretch

variable {world : World} {nesting : Nat} {nodes : List Node} {level : Level} {run : Run}
  {here : Turn} {stretch later : List Turn} {styles : StyleStack} {value : String}

/-- All turns of siblings are at the depth of their level. -/
theorem depth_of_turns (hturns : turns world nesting nodes level run = stretch ++ here :: later) :
    here.level.depth = level.depth := by
  refine turns_induction (P := fun _ level' => level'.depth = level.depth) ?_ rfl hturns
  intro before turn after hdepth hafter
  exact (Turn.depth_after hafter).trans hdepth

/-- Until a second line leads, a temporary switch keeps its own styles in force. -/
theorem styleAt_ready_of_unspent
    (hturns : turns world nesting nodes level run = stretch ++ here :: later)
    (hundoing : level.undoing = some ⟨styles, false⟩)
    (hsteady : ∀ turn ∈ stretch, turn.setsStyles = false)
    (hfew : (stretch ++ [here]).countP Turn.leads ≤ 1) (hvalue : here.text? = some value) :
    (here.level.ready value).styles.styleAt here.level.depth =
      level.styles.styleAt level.depth := by
  have hkept : Undoing.broughtBack level.undoing ((stretch ++ [here]).countP Turn.leads) = none := by
    rw [hundoing]
    exact if_neg (Nat.not_le.mpr (Nat.lt_succ_of_le hfew))
  rw [styleAt_ready hturns hsteady hvalue, hkept, depth_of_turns hturns]
  rfl

/-- The second line that leads undoes a temporary switch, and then what the switch gave way to is in
force as a whole. -/
theorem styles_ready_of_second
    (hturns : turns world nesting nodes level run = stretch ++ here :: later)
    (hundoing : level.undoing = some ⟨styles, false⟩)
    (hsteady : ∀ turn ∈ stretch, turn.setsStyles = false) (hone : stretch.countP Turn.leads = 1)
    (hleads : Node.isContinuation (some value) = false) :
    (here.level.ready value).styles = styles := by
  have hspent : here.level.undoing = some ⟨styles, true⟩ := by
    rw [(resembles_of_turns hturns hsteady).undoing, hone, Function.iterate_one,
      Level.undoing_undone, hundoing]
    rfl
  exact Level.styles_ready_of_spent hspent hleads

end Stretch

/-! ## Lines behind a temporary switch -/

/-- **A temporary switch is undone exactly.** Take a level with styles on which nothing is to be
undone, a temporary switch that succeeds, siblings behind it that set no styles and among which one
line leads, and then a line that leads. All lines of the siblings in between are in the first style
of the code. The line behind them is in the style that was in force before the switch, and what is
below it begins with just the stack of that time, whatever is below the lines in between. -/
theorem restored_behind_temporary_switch {world : World} {nesting : Nat} {nodes : List Node}
    {level : Level} {run : Run} {switch here : Turn} {stretch later : List Turn} {code : String}
    (hturns : turns world nesting nodes level run = switch :: (stretch ++ here :: later))
    (hpending : level.pending = none) (hstyles : level.styles.styles ≠ [])
    (hswitch : switch.arrival.directive? = some (.format true code))
    (hstretch : ∀ turn ∈ stretch, turn.setsStyles = false)
    (hone : stretch.countP Turn.leads = 1) (hhere : here.leads = true) :
    ∃ below first rest style, StyleStack.ofCode code = .ok below ∧ below.styles = first :: rest ∧
      level.styles.styleAt level.depth = .ok style ∧
      (∀ turn ∈ stretch, turn.text?.isSome = true → turn.Writes world nesting first) ∧
      here.Writes world nesting style ∧
      ∃ written, here.GoesOnWith world nesting written ∧ written.styles = level.styles := by
  obtain ⟨rfl, -, others, -, -, hbehind⟩ := of_turns_eq_cons hturns
  obtain ⟨after, hafter, hrest⟩ := hbehind (by simp)
  obtain ⟨below, hbelow, hover, hundoing⟩ := Turn.after_of_switch hswitch hafter
  have hdepth := Turn.depth_after hafter
  have hkeptAside : after.undoing = some ⟨switch.level.styles, false⟩ := by
    rw [hundoing, Level.undoing, hpending, Undoing.past, hswitch]
    rfl
  obtain ⟨first, rest, hfirst⟩ := Turn.exists_first hswitch hbelow
  have hinForce : after.styles.styleAt after.depth = .ok first := by
    rw [hover, hdepth]
    exact StyleStack.styleAt_overlay_self (.inl hstyles) hfirst
  obtain ⟨style, hstyle⟩ := StyleStack.exists_styleAt hstyles switch.level.depth
  refine ⟨below, first, rest, style, hbelow, hfirst, hstyle, fun turn hturn htext => ?_, ?_⟩
  · obtain ⟨value, hvalue⟩ := Option.isSome_iff_exists.mp htext
    obtain ⟨before, further, rfl⟩ := List.append_of_mem hturn
    have hsplit : turns world nesting others after (switch.outcome world nesting).run =
        before ++ turn :: (further ++ here :: later) := by
      rw [hrest, List.append_assoc, List.cons_append]
    -- up to this line no more have led than in the whole stretch
    have hfew : (before ++ [turn]).countP Turn.leads ≤ 1 := by
      rw [List.append_cons, List.countP_append] at hone
      exact Nat.le_of_add_right_le hone.le
    refine Turn.writes_of_ready hvalue ?_
    rw [styleAt_ready_of_unspent hsplit hkeptAside
      (fun other hother => hstretch other (List.mem_append_left _ hother)) hfew hvalue]
    exact hinForce
  · obtain ⟨value, hvalue, hleads⟩ := (Option.any_eq_true _ _).mp hhere
    have hbroughtBack := styles_ready_of_second hrest hkeptAside hstretch hone
      (by simpa using hleads)
    have hready : (here.level.ready value).styles.styleAt here.level.depth = .ok style := by
      rw [hbroughtBack, depth_of_turns hrest, hdepth]
      exact hstyle
    obtain ⟨written, hwritten, hwrittenStyles⟩ := Turn.exists_goesOnWith hvalue hready
    exact ⟨Turn.writes_of_ready hvalue hready, written, hwritten,
      hwrittenStyles.trans hbroughtBack⟩

/-- Items for one line, with lines that continue it on either side of a comment. Below the line the
styles are switched, and below the line behind it there is another one. -/
def itemsOnce : List Node :=
  [{ value := some "!tmpformat I", source := "t:1" }, { value := some " x", source := "t:2" },
    { value := some "A", source := "t:3",
      children := [{ value := some "!format E", source := "t:4" }, { value := some "y" }] },
    { value := some "!comment c", source := "t:6" }, { value := some " z", source := "t:7" },
    { value := some "B", source := "t:8", children := [{ value := some "w", source := "t:9" }] }]

theorem restored_behind_temporary_switch_items :
    let level : Level :=
      { depth := 0, styles := ⟨[sectionStyle, starredStyle]⟩, escaping := false, inMath := true }
    ∃ switch before line aside further here,
      turns bareWorld 0 itemsOnce level {} = [switch, before, line, aside, further, here] ∧
      (∀ turn ∈ [before, line, further], turn.Writes bareWorld 0 (.list "I" "itemize")) ∧
      here.node.source = "t:8" ∧ here.Writes bareWorld 0 sectionStyle ∧
      ∃ written, here.GoesOnWith bareWorld 0 written ∧
        written.styles = ⟨[sectionStyle, starredStyle]⟩ := by
  intro level
  have hfacts : (turns bareWorld 0 itemsOnce level {}).map
      (fun turn => (turn.node.source, turn.arrival.directive?, turn.setsStyles, turn.leads,
        turn.text?.isSome)) =
      [("t:1", some (.format true "I"), true, false, false), ("t:2", none, false, false, true),
        ("t:3", none, false, true, true), ("t:6", some (.comment "c"), false, false, false),
        ("t:7", none, false, false, true), ("t:8", none, false, true, true)] := by
    decide +kernel
  simp only [List.map_eq_cons_iff, List.map_eq_nil_iff] at hfacts
  obtain ⟨switch, _, hturns, hswitch, before, _, rfl, hbefore, line, _, rfl, hline, aside, _, rfl,
    haside, further, _, rfl, hfurther, here, _, rfl, hhere, rfl⟩ := hfacts
  simp only [Prod.mk.injEq] at hswitch hbefore hline haside hfurther hhere
  have hsplit : turns bareWorld 0 itemsOnce level {} =
      switch :: ([before, line, aside, further] ++ here :: []) := hturns
  have hsteady : ∀ turn ∈ [before, line, aside, further], turn.setsStyles = false := by
    simp [hbefore, hline, haside, hfurther]
  have hone : [before, line, aside, further].countP Turn.leads = 1 := by
    simp [hbefore, hline, haside, hfurther]
  obtain ⟨below, first, rest, style, hbelow, hfirst, hstyle, hlines, hlast, hwritten⟩ :=
    restored_behind_temporary_switch hsplit rfl (by simp [level]) hswitch.2.1 hsteady hone
      hhere.2.2.2.1
  have hitems : StyleStack.ofCode "I" = .ok ⟨[.list "I" "itemize"]⟩ := by decide +kernel
  obtain rfl := Except.ok.inj (hitems.symm.trans hbelow)
  obtain ⟨rfl, -⟩ := List.cons.inj hfirst
  obtain rfl : sectionStyle = style := Except.ok.inj hstyle
  refine ⟨switch, before, line, aside, further, here, hturns, fun turn hturn => ?_, hhere.1, hlast,
    hwritten⟩
  simp only [List.mem_cons, List.not_mem_nil, or_false] at hturn
  rcases hturn with rfl | rfl | rfl
  · exact hlines turn (by simp) hbefore.2.2.2.2
  · exact hlines turn (by simp) hline.2.2.2.2
  · exact hlines turn (by simp) hfurther.2.2.2.2

end OutlineTex
