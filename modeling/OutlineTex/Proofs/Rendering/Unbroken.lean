/-
A list is not broken.

Siblings that set no styles have all their lines in one style, and if that is the style of a list,
the lines are the items of one list. It would restart its numbers if it were closed and opened again
on the way, and many things stand on the way: directives, lines that continue others, and below each
line a whole level with lists and switches of its own. This file shows that the list is opened right
before the first line, closed at the very end, and touched by nothing in between.

A turn finds the list of its level in one of two states, not opened yet or open. A turn without a
text writes lines aside and leaves the state as it is. A turn with a text opens the list if it is
not open, and what is rendered below its line gives the level back as it was, down to the style of
its depth.
-/
import OutlineTex.Proofs.Rendering.Wrappers

set_option autoImplicit false

namespace OutlineTex

open Rendering

/-! ## Lines that open and close lists -/

/-- Whether a line opens or closes a list. -/
def Line.bounds : Line → Bool
  | .opening .. | .closing .. => true
  | _ => false

theorem Line.bounds_of_isAside {line : Line} (h : line.isAside = true) : line.bounds = false := by
  cases line with
  | opening | closing => exact absurd h (by simp [isAside])
  | _ => rfl

namespace Style

/-- The list that a line of the style stands in, as its level knows of it. -/
def asList (style : Style) : Option Style :=
  if style.environment.isSome then some style else none

/-- What is written before the first line of the style: its list is opened, if it has one. -/
def openings (style : Style) (depth : Nat) (source : String) : List Line :=
  (style.environment.map fun environment => .opening depth style environment source).toList

/-- What is written behind the last line of the style. -/
def closings (style : Style) (depth : Nat) : List Line :=
  (style.environment.map fun environment => .closing depth style environment).toList

end Style

/-! ## Turns without a text -/

/-- The contract that nothing but lines aside is written, and that the list of the level stays as
it is. -/
def aside : Contract := fun level _ outcome =>
  (∃ lines : List Line, outcome.blocks = lines.map .line ∧ ∀ line ∈ lines, line.isAside = true) ∧
    ∀ after, outcome.result = .ok after → after.openStyle = level.openStyle

namespace aside

variable {level : Level} {run : Run}

theorem of_lines {result : Except Failure Level} {end_ : Run} {events : List Event}
    {lines : List Line} (hlines : ∀ line ∈ lines, line.isAside = true)
    (hopen : ∀ after, result = .ok after → after.openStyle = level.openStyle) :
    aside level run ⟨result, end_, lines.map .line, events⟩ :=
  ⟨⟨lines, rfl, hlines⟩, hopen⟩

theorem of_silent {result : Except Failure Level} {end_ : Run} {events : List Event}
    (hopen : ∀ after, result = .ok after → after.openStyle = level.openStyle) :
    aside level run ⟨result, end_, [], events⟩ :=
  of_lines (fun _ hline => absurd hline List.not_mem_nil) hopen

theorem same (after : Level) (h : Except.ok (ε := Failure) level = .ok after) :
    after.openStyle = level.openStyle := by
  rw [Except.ok.inj h]

theorem inSequence {first : Outcome Level} {next : Level → Rendering Level}
    (hfirst : aside level run first)
    (hnext : ∀ after, first.result = .ok after → aside after first.run (next after first.run)) :
    aside level run (first.andThen next) := by
  obtain ⟨⟨lines, hblocks, hlines⟩, hopen⟩ := hfirst
  unfold Outcome.andThen
  cases hresult : first.result with
  | error failure =>
    rw [hblocks]
    exact of_lines hlines fun _ h => absurd h (by simp)
  | ok middle =>
    obtain ⟨⟨further, hfurther, hfurtherLines⟩, hafter⟩ := hnext middle hresult
    dsimp only
    rw [hblocks, hfurther, ← List.map_append]
    refine of_lines (fun line hline => ?_) fun after h => (hafter after h).trans (hopen _ hresult)
    rcases List.mem_append.mp hline with hline | hline
    · exact hlines line hline
    · exact hfurtherLines line hline

theorem basic : aside.Basic where
  still _ _ := of_silent same
  inSequence := inSequence
  failing _ _ _ := of_silent fun _ h => absurd h (by simp)
  reporting _ _ _ _ := of_silent same
  changing _ _ _ _ := of_silent same
  entering _ _ _ _ _ _ _ := of_silent same
  writing _ _ _ hlines := of_lines hlines same

theorem continues : aside.Continues Level.follow where
  proceed _ := basic.still
  done := basic.still
  escaping on level run := by
    refine of_silent fun after h => ?_
    rw [← Except.ok.inj h]

end aside

namespace Turn

variable (world : World) (nesting : Nat) {turn : Turn}

/-- A turn without a text that sets no styles writes lines aside, and leaves the list alone. -/
theorem aside_of_steady (hsteady : turn.setsStyles = false) (htext : turn.text? = none) :
    aside turn.level turn.run (turn.outcome world nesting) := by
  rcases text?_eq_none htext with hvalue | ⟨directive, hdirective, hhidden⟩
  · obtain ⟨hresult, hblocks⟩ := outcome_of_placeholder world nesting hvalue
    refine ⟨⟨[], hblocks, by simp⟩, fun after hafter => ?_⟩
    exact absurd (hresult.symm.trans hafter) (by simp)
  · rw [outcome_of_directive world nesting hdirective hhidden]
    exact aside.basic.dispatch_of_steady world aside.continues hsteady turn.level turn.run

end Turn

/-! ## Turns with a text -/

/-- Nothing is to be undone on the level, and the style of its depth is the given one. -/
structure Level.KeepsTo (level : Level) (style : Style) : Prop where
  pending : level.pending = none
  styleAt : level.styles.styleAt level.depth = .ok style

namespace Level

/-- What is written on a level before a line of the style: its list is opened if none is open. -/
def opening (level : Level) (style : Style) (source : String) : List Line :=
  if level.openStyle.isNone then style.openings level.depth source else []

variable {level : Level} {style : Style}

theorem opening_of_none (h : level.openStyle = none) (source : String) :
    level.opening style source = style.openings level.depth source := by
  rw [opening, h]
  rfl

/-- Where the list of the style is open, or the style has none, nothing is written. -/
theorem opening_of_open (h : level.openStyle = style.asList) (source : String) :
    level.opening style source = [] := by
  rw [opening, h, Style.asList, Style.openings]
  cases style.environment <;> rfl

/-- A level that knows of no other list opens the one of the style, unless it is open. -/
theorem blocks_settleRun (hopen : level.openStyle = none ∨ level.openStyle = style.asList)
    (source : String) (run : Run) :
    (level.settleRun style source run).blocks = (level.opening style source).map .line := by
  have hown : level.openStyle.any (· != style) = false := by
    rcases hopen with hopen | hopen
    · rw [hopen, Option.any_none]
    · unfold Style.asList at hopen
      rw [hopen]
      split <;> simp
  rw [settleRun_eq, hown, if_neg (by simp), pure_then]
  unfold openRun opening Style.openings
  cases henvironment : style.environment with
  | none => cases level.openStyle <;> rfl
  | some environment => cases level.openStyle <;> rfl

namespace KeepsTo

/-- Where nothing is to be undone, a line is written by settling its list and putting it down. -/
theorem writeLine_eq (h : level.KeepsTo style) (source : String) (address : Option String)
    (value : String) (next : Option Node) :
    level.writeLine source address (some value) next = (do
      let settled ← level.settleRun style source
      emit (.content (settled.textLine style source address value next))
      return settled.pastLine value) := by
  have hready : (if Node.isContinuation (some value) then pure level else level.restoreTemporary) =
      (pure level : Rendering Level) := by
    rw [restoreTemporary, h.pending, ite_self]
  rw [writeLine_some, hready, pure_bind, h.styleAt, ofExcept_ok, pure_bind]

/-- A line opens its list if that is not open, and leaves it open. -/
theorem writeLine (h : level.KeepsTo style)
    (hopen : level.openStyle = none ∨ level.openStyle = style.asList) (source : String)
    (address : Option String) (value : String) (next : Option Node) (run : Run) :
    (level.writeLine source address (some value) next run).blocks =
        (level.opening style source ++
          [Line.content (level.textLine style source address value next)]).map .line ∧
      ∃ inMath, (level.writeLine source address (some value) next run).result =
        .ok { level with openStyle := style.asList, inMath } := by
  have hlist : (if style.environment.isSome then some style
      else level.openStyle.filter (· == style)) = style.asList := by
    unfold Style.asList at hopen ⊢
    split at hopen
    · next hsome => rw [if_pos hsome, if_pos hsome]
    · next hnone => rw [if_neg hnone, if_neg hnone, hopen.elim id id, Option.filter_none]
  have hsettled := level.result_settleRun style source run
  rw [hlist] at hsettled
  rw [h.writeLine_eq, then_of_ok hsettled]
  dsimp only
  rw [blocks_settleRun hopen, List.map_append]
  obtain ⟨inMath, hpast⟩ := exists_pastLine { level with openStyle := style.asList } value
  exact ⟨rfl, inMath, congrArg Except.ok hpast⟩

end KeepsTo

end Level

namespace Turn

variable {world : World} {nesting : Nat} {turn : Turn} {after : Level} {style : Style}

/-- A turn that sets no styles leaves a level that keeps to its style as it is in this respect. -/
theorem keepsTo_after (h : turn.level.KeepsTo style) (hsteady : turn.setsStyles = false)
    (hafter : (turn.outcome world nesting).result = .ok after) : after.KeepsTo style := by
  have hundone : turn.level.undone = turn.level := by rw [Level.undone, h.pending]
  have hsame := resembles_of_steady hsteady hafter
  rw [hundone, ite_self] at hsame
  refine ⟨hsame.pending.trans h.pending, ?_⟩
  rw [hsame.styleAt after.depth (Nat.le_refl _), hsame.depth]
  exact h.styleAt

/-- The line that a turn with a text writes on a level that keeps to the style. -/
def lineIn (turn : Turn) (style : Style) (value : String) : TextLine :=
  turn.level.textLine style turn.node.source turn.node.link? value turn.next

variable (world nesting)

/-- A turn with a text opens the list of its line if that is not open, and puts down the line. What
is below is no line of its level. -/
theorem blocks_of_text {value : String} (h : turn.level.KeepsTo style)
    (hopen : turn.level.openStyle = none ∨ turn.level.openStyle = style.asList)
    (hvalue : turn.text? = some value) :
    (∃ below, (turn.outcome world nesting).blocks =
        (turn.level.opening style turn.node.source ++
          [Line.content (turn.lineIn style value)]).map .line ++ below ∧
      Block.ownLines below = []) ∧
    ∀ after, (turn.outcome world nesting).result = .ok after → after.openStyle = style.asList := by
  obtain ⟨hresult, hblocks⟩ := outcome_of_text? world nesting hvalue
  obtain ⟨hwritten, inMath, hlevel⟩ :=
    h.writeLine hopen turn.node.source turn.node.link? value turn.next turn.run
  rw [hresult, hblocks, renderLine, then_of_ok hlevel]
  dsimp only
  rw [hwritten]
  refine ⟨⟨_, rfl, ?_⟩, fun after hafter => ?_⟩
  · unfold renderBelow
    split
    · rfl
    · rw [Level.descend_eq, Level.blocks_enclose]
      rfl
  · unfold renderBelow at hafter
    split at hafter
    · rw [← Except.ok.inj hafter]
    · rw [Level.descend_eq] at hafter
      obtain ⟨inner, -, rfl⟩ := Level.of_enclose hafter
      rfl

end Turn

/-! ## Siblings -/

section Siblings

variable {world : World} {nesting : Nat} {node : Node} {nodes rest : List Node}
  {level after : Level} {run : Run} {style : Style}

/-- Siblings that can be rendered are rendered in the turn of the first one and behind it. -/
theorem exists_turn_of_renderNodes
    (h : (renderNodes world (enterOutline world nesting) (node :: rest) level run).result =
      .ok after) :
    ∃ (turn : Turn) (middle : Level), turn.node = node ∧ turn.level = level ∧
      (turn.outcome world nesting).result = .ok middle ∧
      let behind := renderNodes world (enterOutline world nesting) rest middle
        (turn.outcome world nesting).run
      behind.result = .ok after ∧
        (renderNodes world (enterOutline world nesting) (node :: rest) level run).blocks =
          (turn.outcome world nesting).blocks ++ behind.blocks := by
  rw [renderNodes] at h ⊢
  obtain ⟨middle, hmiddle, hrest⟩ := result_bind_eq_ok.mp h
  rw [then_of_ok hmiddle]
  exact ⟨⟨⟨level, run, node⟩, rest.head?⟩, middle, rfl, rfl, hmiddle, hrest, rfl⟩

/-- The turns of siblings are turns of nodes among them. -/
theorem node_mem_of_mem_turns {turn : Turn} (h : turn ∈ turns world nesting nodes level run) :
    turn.node ∈ nodes := by
  induction nodes generalizing level run with
  | nil => exact absurd h List.not_mem_nil
  | cons node rest ih =>
    rw [turns] at h
    rcases List.mem_cons.mp h with rfl | hlater
    · exact List.mem_cons_self
    · split at hlater
      · exact absurd hlater List.not_mem_nil
      · exact List.mem_cons_of_mem _ (ih hlater)

/-- While its list is open, siblings that set no styles write no line that opens or closes one. -/
theorem bounds_of_open
    (hsteady : ∀ node ∈ nodes, (node.value.bind Directive.ofValue?).any Directive.setsStyles = false)
    (hlevel : level.KeepsTo style) (hopen : level.openStyle = style.asList)
    (hafter : (renderNodes world (enterOutline world nesting) nodes level run).result =
      .ok after) :
    (∀ line ∈ Block.ownLines (renderNodes world (enterOutline world nesting) nodes level run).blocks,
      line.bounds = false) ∧ after.openStyle = style.asList := by
  induction nodes generalizing level run with
  | nil =>
    rw [← Except.ok.inj hafter]
    exact ⟨fun line hline => absurd hline List.not_mem_nil, hopen⟩
  | cons node rest ih =>
    obtain ⟨turn, middle, rfl, rfl, hmiddle, hrest, hblocks⟩ := exists_turn_of_renderNodes hafter
    have hturn : turn.setsStyles = false := hsteady turn.node List.mem_cons_self
    have hhere : (∀ line ∈ Block.ownLines (turn.outcome world nesting).blocks,
        line.bounds = false) ∧ middle.openStyle = style.asList := by
      cases htext : turn.text? with
      | none =>
        obtain ⟨⟨lines, hlines, haside⟩, hsame⟩ :=
          Turn.aside_of_steady world nesting hturn htext
        refine ⟨fun line hline => ?_, (hsame middle hmiddle).trans hopen⟩
        rw [hlines, Block.ownLines_map_line] at hline
        exact Line.bounds_of_isAside (haside line hline)
      | some value =>
        obtain ⟨⟨below, hlines, hbelow⟩, hsame⟩ :=
          Turn.blocks_of_text world nesting hlevel (.inr hopen) htext
        refine ⟨fun line hline => ?_, hsame middle hmiddle⟩
        rw [hlines, Level.opening_of_open hopen, Block.ownLines_append, hbelow,
          Block.ownLines_map_line, List.append_nil] at hline
        rw [List.mem_singleton.mp hline]
        rfl
    obtain ⟨hlater, hlast⟩ := ih (fun node hnode => hsteady node (.tail _ hnode))
      (Turn.keepsTo_after hlevel hturn hmiddle) hhere.2 hrest
    refine ⟨fun line hline => ?_, hlast⟩
    rw [hblocks, Block.ownLines_append] at hline
    exact (List.mem_append.mp hline).elim (hhere.1 line) (hlater line)

/-- Siblings that set no styles open the list of their style right before the first of their lines,
if they have one. What they write before are lines aside, and what they write behind neither opens
nor closes a list. -/
theorem exists_opening_of_text
    (hsteady : ∀ node ∈ nodes, (node.value.bind Directive.ofValue?).any Directive.setsStyles = false)
    (hlevel : level.KeepsTo style) (hopen : level.openStyle = none)
    (hafter : (renderNodes world (enterOutline world nesting) nodes level run).result = .ok after)
    (htext : Block.textLines (renderNodes world (enterOutline world nesting) nodes level run).blocks
      ≠ []) :
    (∃ before first behind,
      (renderNodes world (enterOutline world nesting) nodes level run).blocks =
        (before ++ style.openings level.depth first.source ++ [Line.content first]).map .line ++
          behind ∧
      (∀ line ∈ before, line.isAside = true) ∧
      ∀ line ∈ Block.ownLines behind, line.bounds = false) ∧
    after.openStyle = style.asList := by
  induction nodes generalizing level run with
  | nil => exact absurd rfl htext
  | cons node rest ih =>
    obtain ⟨turn, middle, rfl, rfl, hmiddle, hrest, hblocks⟩ := exists_turn_of_renderNodes hafter
    have hturn : turn.setsStyles = false := hsteady turn.node List.mem_cons_self
    have hsteadyRest := fun node hnode => hsteady node (List.mem_cons_of_mem _ hnode)
    have hkept := Turn.keepsTo_after hlevel hturn hmiddle
    cases hvalue : turn.text? with
    | none =>
      -- the list is opened later, by one of the other siblings
      obtain ⟨⟨lines, hlines, haside⟩, hsame⟩ :=
        Turn.aside_of_steady world nesting hturn hvalue
      have htextRest : Block.textLines (renderNodes world (enterOutline world nesting) rest middle
          (turn.outcome world nesting).run).blocks ≠ [] := by
        rwa [hblocks, Block.textLines_append, Turn.textLines_outcome, Turn.line?, hvalue] at htext
      obtain ⟨⟨before, first, behind, hbehind, hbefore, hbounds⟩, hlast⟩ :=
        ih hsteadyRest hkept ((hsame middle hmiddle).trans hopen) hrest htextRest
      refine ⟨⟨lines ++ before, first, behind, ?_, ?_, hbounds⟩, hlast⟩
      · rw [hblocks, hlines, hbehind, Turn.depth_after hmiddle]
        simp
      · exact fun line hline => (List.mem_append.mp hline).elim (haside line) (hbefore line)
    | some value =>
      obtain ⟨⟨below, hlines, hbelow⟩, hsame⟩ :=
        Turn.blocks_of_text world nesting hlevel (.inl hopen) hvalue
      obtain ⟨hbounds, hlast⟩ := bounds_of_open hsteadyRest hkept (hsame middle hmiddle) hrest
      refine ⟨⟨[], turn.lineIn style value, below ++ (renderNodes world
        (enterOutline world nesting) rest middle (turn.outcome world nesting).run).blocks, ?_,
        by simp, ?_⟩, hlast⟩
      · rw [hblocks, hlines, Level.opening_of_none hopen, List.append_assoc]
        rfl
      · intro line hline
        rw [Block.ownLines_append, hbelow, List.nil_append] at hline
        exact hbounds line hline

/-- What closes the list of a level is the line that its style has for it. -/
theorem Level.blocks_closeRun (hopen : level.openStyle = style.asList) (run : Run) :
    (level.closeRun run).blocks = (style.closings level.depth).map .line := by
  rw [closeRun, hopen, Style.asList, Style.closings]
  cases henvironment : style.environment with
  | none => rfl
  | some environment =>
    rw [Option.isSome_some, if_pos rfl]
    dsimp only
    rw [henvironment]
    rfl

/-- Siblings that set no styles write their own lines in this order: lines aside, the opening of
their list right before the first of their lines, further lines that neither open nor close a list,
and the closing of the list. -/
theorem exists_list_of_renderSiblings {depth : Nat} {setting : Setting}
    (hsteady : ∀ node ∈ nodes, (node.value.bind Directive.ofValue?).any Directive.setsStyles = false)
    (hstyle : setting.styles.styleAt depth = .ok style)
    (hafter : (renderSiblings world (enterOutline world nesting) nodes (.fresh depth setting)
      run).result = .ok after)
    (htext : Block.textLines (renderSiblings world (enterOutline world nesting) nodes
      (.fresh depth setting) run).blocks ≠ []) :
    ∃ before first behind,
      (renderSiblings world (enterOutline world nesting) nodes (.fresh depth setting) run).blocks =
        (before ++ style.openings depth first.source ++ [Line.content first]).map .line ++ behind ++
          (style.closings depth).map .line ∧
      (∀ line ∈ before, line.isAside = true) ∧
      ∀ line ∈ Block.ownLines behind, line.bounds = false := by
  rw [textLines_renderSiblings, ← textLines_renderNodes] at htext
  obtain ⟨last, hlast, -⟩ := result_bind_eq_ok.mp hafter
  have hlevel : (Level.fresh depth setting).KeepsTo style := ⟨rfl, hstyle⟩
  obtain ⟨⟨before, first, behind, hblocks, hbefore, hbehind⟩, hopen⟩ :=
    exists_opening_of_text hsteady hlevel rfl hlast htext
  have henter := scopes.elementary.enterOutline world nesting
  have hdepth : last.depth = depth :=
    (scopes.elementary.renderNodes world henter nodes _ run last hlast).1
  refine ⟨before, first, behind, ?_, hbefore, hbehind⟩
  rw [renderSiblings, then_of_ok hlast]
  dsimp only
  rw [hblocks, Level.blocks_closeRun hopen, hdepth]
  rfl

end Siblings

/-- **A list is not broken.** Take siblings that set no styles and can be rendered, with at least one
line. All their lines are in the style that there is for the level in the beginning. If that is the
style of a list, the level opens a list right before the first of the lines, with the label of that
line, and closes it with the last thing that it writes. It opens and closes no other list, and none
at all if the style has none. -/
theorem unbroken_renderSiblings {world : World} {nesting : Nat} {nodes : List Node} {depth : Nat}
    {setting : Setting} {run : Run} {after : Level}
    (hsteady : ∀ node ∈ nodes, ∀ directive,
      node.value.bind Directive.ofValue? = some directive → directive.setsStyles = false)
    (hafter : (renderSiblings world (enterOutline world nesting) nodes (.fresh depth setting)
      run).result = .ok after)
    (htext : Block.textLines (renderSiblings world (enterOutline world nesting) nodes
      (.fresh depth setting) run).blocks ≠ []) :
    let blocks := (renderSiblings world (enterOutline world nesting) nodes (.fresh depth setting)
      run).blocks
    ∃ style, setting.styles.styleAt depth = .ok style ∧
      (∀ line ∈ Block.textLines blocks, line.style = style) ∧
      match style.environment with
      | none => ∀ line ∈ Block.ownLines blocks, line.bounds = false
      | some environment => ∃ (before : List Line) (first : TextLine) (behind : List Block),
        blocks = before.map .line ++
          [.line (.opening depth style environment first.source), .line (.content first)] ++
          behind ++ [.line (.closing depth style environment)] ∧
        (∀ line ∈ before, line.isAside = true) ∧
        ∀ line ∈ Block.ownLines behind, line.bounds = false := by
  intro blocks
  have hsteadyNodes : ∀ node ∈ nodes,
      (node.value.bind Directive.ofValue?).any Directive.setsStyles = false :=
    fun node hnode => (Option.any_eq_false _ _).mpr (hsteady node hnode)
  have hstyles : ∀ line ∈ Block.textLines blocks, setting.styles.styleAt depth = .ok line.style := by
    intro line hline
    rw [textLines_renderSiblings] at hline
    obtain ⟨turn, hturn, hline⟩ := List.mem_filterMap.mp hline
    refine style_of_line? (fun turn hturn => ?_) hturn hline
    exact hsteadyNodes turn.node (node_mem_of_mem_turns hturn)
  obtain ⟨line, hline⟩ := List.exists_mem_of_ne_nil _ htext
  refine ⟨line.style, hstyles line hline, fun other hother => ?_, ?_⟩
  · exact Except.ok.inj ((hstyles other hother).symm.trans (hstyles line hline))
  · obtain ⟨before, first, behind, hblocks, hbefore, hbehind⟩ :=
      exists_list_of_renderSiblings hsteadyNodes (hstyles line hline) hafter htext
    have hblocks : blocks = _ := hblocks
    rw [hblocks, Style.openings, Style.closings]
    split
    · next hnone =>
      intro other hother
      rw [hnone] at hother
      simp only [Option.map_none, Option.toList_none, List.append_nil, List.map_nil,
        Block.ownLines_append, Block.ownLines_map_line, List.mem_append, List.mem_singleton]
        at hother
      rcases hother with (hother | rfl) | hother
      · exact Line.bounds_of_isAside (hbefore other hother)
      · rfl
      · exact hbehind other hother
    · next environment hsome =>
      refine ⟨before, first, behind, ?_, hbefore, hbehind⟩
      rw [hsome]
      simp

/-- Items with a comment before them, and below the first of them an outline that switches the
styles and a list that is numbered. -/
def itemsWithin : List Node :=
  [{ value := some "!comment c", source := "t:1" },
    { value := some "a", source := "t:2",
      children := [{ value := some "!include p.otl" }, { value := some "!tmpformat E" },
        { value := some "x" }] },
    { value := some "!escape 0", source := "t:6" }, { value := some " b", source := "t:7" },
    { value := some "d", source := "t:8" }]

theorem unbroken_renderSiblings_items :
    let item := Style.list "I" "itemize"
    let blocks := (renderSiblings switchingWorld (enterOutline switchingWorld 1) itemsWithin
      (.fresh 1 ⟨⟨[item]⟩, true⟩) {}).blocks
    (Block.textLines blocks).map (·.source) = ["t:2", "t:7", "t:8"] ∧
      (∀ line ∈ Block.textLines blocks, line.style = item) ∧
      ∃ environment, item.environment = some environment ∧
        ∃ (before : List Line) (first : TextLine) (behind : List Block),
          blocks = before.map .line ++
            [.line (.opening 1 item environment first.source), .line (.content first)] ++
            behind ++ [.line (.closing 1 item environment)] ∧
          ∀ line ∈ Block.ownLines behind, line.bounds = false := by
  intro item blocks
  have hsteady : ∀ node ∈ itemsWithin, ∀ directive,
      node.value.bind Directive.ofValue? = some directive → directive.setsStyles = false := by
    have hall : ∀ node ∈ itemsWithin,
        (node.value.bind Directive.ofValue?).any Directive.setsStyles = false := by
      decide +kernel
    exact fun node hnode => (Option.any_eq_false _ _).mp (hall node hnode)
  have hsources : (Block.textLines blocks).map (·.source) = ["t:2", "t:7", "t:8"] := by
    decide +kernel
  have htext : Block.textLines blocks ≠ [] := by
    intro hempty
    rw [hempty] at hsources
    exact absurd hsources (by simp)
  have hrenders : (renderSiblings switchingWorld (enterOutline switchingWorld 1) itemsWithin
      (.fresh 1 ⟨⟨[item]⟩, true⟩) {}).result.isOk = true := by
    decide +kernel
  cases hafter : (renderSiblings switchingWorld (enterOutline switchingWorld 1) itemsWithin
      (.fresh 1 ⟨⟨[item]⟩, true⟩) {}).result with
  | error failure =>
    rw [hafter] at hrenders
    exact absurd hrenders Bool.false_ne_true
  | ok after =>
    obtain ⟨style, hstyle, hlines, hlist⟩ := unbroken_renderSiblings hsteady hafter htext
    obtain rfl : item = style := Except.ok.inj hstyle
    obtain ⟨before, first, behind, hblocks, -, hbehind⟩ := hlist
    exact ⟨hsources, hlines, _, rfl, before, first, behind, hblocks, hbehind⟩

end OutlineTex
