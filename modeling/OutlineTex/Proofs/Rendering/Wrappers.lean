/-
What stands around the lines of a level.

A line that leads has what its style puts before a text, and a line that continues it has blanks
instead. What the style puts after a text belongs behind the last of these lines. Whether to write
it is decided with a look at the next sibling, whatever that is, and not at the next line, so the
two agree only as long as no other directive stands between a line and its continuation. This file
says so for siblings that set no styles: their lines are all in one style, what stands before the
texts is always right, and what stands after them is right just if every continuation follows a
line at once.
-/
import Mathlib.Data.List.Chain
import OutlineTex.Proofs.Rendering.Switches

set_option autoImplicit false

namespace OutlineTex

open Rendering

/-! ## Lines that are wrapped once -/

/-- Whatever its style has after the text is left out on a line just if the next line continues
it. -/
def TextLine.Wrapped : List TextLine → Prop
  | [] => True
  | line :: rest => line.continued = rest.head?.any (·.continues) ∧ Wrapped rest

/-- A line that leads and all those that continue it leave out what their style has after the text,
except for the last of them. -/
def TextLine.ClosedOnce (lines : List TextLine) : Prop :=
  ∀ before head further behind, lines = before ++ head :: (further ++ behind) →
    head.continues = false → (∀ line ∈ further, line.continues = true) →
    (∀ line ∈ behind.head?, line.continues = false) →
    (head :: further).map (·.continued) = List.replicate further.length true ++ [false]

namespace TextLine

theorem Wrapped.of_append {before rest : List TextLine} (h : Wrapped (before ++ rest)) :
    Wrapped rest := by
  induction before with
  | nil => exact h
  | cons line before ih => exact ih h.2

/-- A line and those that continue it are closed by the last of them. -/
theorem Wrapped.closes {head : TextLine} {further behind : List TextLine}
    (h : Wrapped (head :: (further ++ behind))) (hfurther : ∀ line ∈ further, line.continues = true)
    (hbehind : ∀ line ∈ behind.head?, line.continues = false) :
    (head :: further).map (·.continued) = List.replicate further.length true ++ [false] := by
  induction further generalizing head with
  | nil =>
    have hlast : head.continued = false := by
      rw [h.1]
      cases hnext : behind.head? with
      | none => simp [hnext]
      | some next => simpa [hnext] using hbehind next hnext
    rw [List.map_singleton, hlast]
    rfl
  | cons next further ih =>
    have hnext : head.continued = true := by
      rw [h.1]
      exact hfurther next List.mem_cons_self
    have hrest := ih h.2 fun line hline => hfurther line (List.mem_cons_of_mem next hline)
    rw [List.map_cons, hrest, hnext]
    rfl

theorem ClosedOnce.of_cons {line : TextLine} {rest : List TextLine}
    (h : ClosedOnce (line :: rest)) : ClosedOnce rest := by
  intro before head further behind hlines
  exact h (line :: before) head further behind (by rw [hlines, List.cons_append])

/-- Where a line leads, it is closed together with the lines that continue it. -/
theorem ClosedOnce.run (before : List TextLine) {rest : List TextLine} {head : TextLine}
    (h : ClosedOnce (before ++ head :: rest)) (hhead : head.continues = false) :
    let further := rest.takeWhile (·.continues)
    (head :: further).map (·.continued) = List.replicate further.length true ++ [false] := by
  refine h before head _ (rest.dropWhile (·.continues)) ?_ hhead
    (fun line hline => List.mem_takeWhile_imp hline) fun line hline => ?_
  · rw [List.takeWhile_append_dropWhile]
  · rw [← List.find?_not_eq_head?_dropWhile] at hline
    simpa using List.find?_some hline

/-- Lines are wrapped if each that leads is closed together with those that continue it, and so are
the first of them, whether or not these lead. -/
theorem wrapped_of_runs {lines : List TextLine} (hclosed : ClosedOnce lines)
    (hfirst : ∀ first rest, lines = first :: rest →
      let further := rest.takeWhile (·.continues)
      (first :: further).map (·.continued) = List.replicate further.length true ++ [false]) :
    Wrapped lines := by
  induction lines with
  | nil => trivial
  | cons line rest ih =>
    have hline := hfirst line rest rfl
    cases rest with
    | nil => exact ⟨List.head_eq_of_cons_eq hline, trivial⟩
    | cons next rest =>
      cases hnext : next.continues with
      | true =>
        -- the lines from the next one on are closed by the same last line
        rw [List.takeWhile_cons_of_pos hnext] at hline
        obtain ⟨hcontinued, hbehind⟩ := List.cons.inj hline
        refine ⟨hcontinued.trans hnext.symm, ih hclosed.of_cons ?_⟩
        rintro first others ⟨rfl, rfl⟩
        exact hbehind
      | false =>
        -- the line stands alone, and the next one leads
        rw [List.takeWhile_cons_of_neg (by simp [hnext])] at hline
        refine ⟨(List.head_eq_of_cons_eq hline).trans hnext.symm, ih hclosed.of_cons ?_⟩
        rintro first others ⟨rfl, rfl⟩
        exact ClosedOnce.run [line] hclosed hnext

/-- For lines of which the first leads, the two ways of saying what is wrapped agree. -/
theorem wrapped_iff_closedOnce {lines : List TextLine}
    (hfirst : ∀ line ∈ lines.head?, line.continues = false) :
    Wrapped lines ↔ ClosedOnce lines := by
  constructor
  · intro h before head further behind hlines _ hfurther hbehind
    rw [hlines] at h
    exact h.of_append.closes hfurther hbehind
  · intro h
    refine wrapped_of_runs h fun first rest hlines => ?_
    subst hlines
    exact ClosedOnce.run [] h (hfirst first rfl)

end TextLine

/-! ## Lines and the turns that they are written in -/

namespace Turn

/-- A value that continues a line is a text, because no directive begins with a blank. -/
theorem continues_eq (turn : Turn) : turn.continues = Node.isContinuation turn.node.value := by
  unfold continues Visit.text?
  cases hdirective : turn.arrival.directive? with
  | none => cases hvalue : turn.node.value <;> rfl
  | some directive =>
    obtain ⟨value, hvalue, hof⟩ := Option.bind_eq_some_iff.mp hdirective
    have hvalue : turn.node.value = some value := hvalue
    rw [hvalue, Directive.isContinuation_of_ofValue? hof]
    cases directive with
    | preliminary text =>
      dsimp only
      split
      · exact Directive.isContinuation_of_preliminary hof
      · rfl
    | _ => rfl

theorem isSome_text?_of_continues {turn : Turn} (h : turn.continues = true) :
    turn.text?.isSome = true := by
  obtain ⟨value, hvalue, -⟩ := (Option.any_eq_true _ _).mp h
  rw [hvalue]
  rfl

/-- The line of a turn continues another if the turn does, and it is continued if the next sibling
continues a line. -/
theorem of_line?_eq_some {turn : Turn} {line : TextLine} (h : turn.line? = some line) :
    line.source = turn.node.source ∧ line.continues = turn.continues ∧
      line.continued = Node.isContinuation (turn.next.bind (·.value)) := by
  obtain ⟨value, hvalue, hline⟩ := Option.bind_eq_some_iff.mp h
  unfold continues
  rw [hvalue]
  split at hline
  · rw [← Option.some.inj hline]
    exact ⟨rfl, rfl, rfl⟩
  · exact absurd hline (by simp)

/-- A turn with a text that succeeds has a line. -/
theorem isSome_line?_of_ok {world : World} {nesting : Nat} {turn : Turn} {after : Level}
    (hafter : (turn.outcome world nesting).result = .ok after) :
    turn.line?.isSome = turn.text?.isSome := by
  unfold line?
  cases htext : turn.text? with
  | none => rfl
  | some value =>
    rw [Option.bind_some]
    cases hstyle : (turn.level.ready value).styles.styleAt turn.level.depth with
    | ok style => rfl
    | error failure =>
      rw [(outcome_of_text? world nesting htext).1] at hafter
      obtain ⟨written, hwritten, -⟩ := result_bind_eq_ok.mp hafter
      have hfails := ((turn.level.writeLine_ready turn.node.source turn.node.link? value turn.next
        turn.run).1 failure hstyle).1
      exact absurd (hfails.symm.trans hwritten) (by simp)

end Turn

/-- Turns that all have their lines, and in which each knows whether the next one continues it. -/
def Turn.Linked : List Turn → Prop
  | [] => True
  | turn :: later => turn.line?.isSome = turn.text?.isSome ∧
      Node.isContinuation (turn.next.bind (·.value)) = later.head?.any Turn.continues ∧
      Linked later

/-- The first turn is that of the first sibling. -/
theorem head?_turns (world : World) (nesting : Nat) (nodes : List Node) (level : Level)
    (run : Run) : (turns world nesting nodes level run).head?.any Turn.continues =
      Node.isContinuation (nodes.head?.bind (·.value)) := by
  cases nodes with
  | nil => rfl
  | cons node rest =>
    rw [turns, List.head?_cons, Option.any_some, Turn.continues_eq]
    rfl

theorem Turn.Linked.isSome_line? {turns : List Turn} {turn : Turn} (h : Linked turns)
    (hturn : turn ∈ turns) : turn.line?.isSome = turn.text?.isSome := by
  induction turns with
  | nil => exact absurd hturn List.not_mem_nil
  | cons first later ih =>
    rcases List.mem_cons.mp hturn with rfl | hlater
    · exact h.1
    · exact ih h.2.2 hlater

/-- The turns of siblings that can be rendered are linked. -/
theorem linked_turns {world : World} {nesting : Nat} {nodes : List Node} {level after : Level}
    {run : Run}
    (h : (renderNodes world (enterOutline world nesting) nodes level run).result = .ok after) :
    Turn.Linked (turns world nesting nodes level run) := by
  induction nodes generalizing level run with
  | nil => trivial
  | cons node rest ih =>
    obtain ⟨turn, middle, end_, -, hnext, hmiddle, hturns, hrest⟩ :=
      turns_cons_of_renderNodes world nesting h
    rw [hturns]
    refine ⟨Turn.isSome_line?_of_ok hmiddle, ?_, ih hrest⟩
    rw [hnext, head?_turns]

/-- Every continuation follows a line at once. -/
def Turn.Joined (turns : List Turn) : Prop :=
  turns.IsChain fun turn next => next.continues = true → turn.text?.isSome = true

namespace Turn

variable {turn : Turn} {later : List Turn}

/-- Whether the first line of turns continues another. -/
def beginsContinuing (turns : List Turn) : Bool :=
  (turns.filterMap line?).head?.any (·.continues)

/-- A turn with a text has the first line of its own and the later turns. -/
theorem exists_line_of_text (hlinked : Linked (turn :: later)) (htext : turn.text?.isSome = true) :
    ∃ line, turn.line? = some line ∧ line.continues = turn.continues ∧
      line.continued = later.head?.any Turn.continues := by
  obtain ⟨line, hline⟩ := Option.isSome_iff_exists.mp (hlinked.1.trans htext)
  obtain ⟨-, hcontinues, hcontinued⟩ := of_line?_eq_some hline
  exact ⟨line, hline, hcontinues, hcontinued.trans hlinked.2.1⟩

theorem beginsContinuing_of_text (hlinked : Linked (turn :: later))
    (htext : turn.text?.isSome = true) : beginsContinuing (turn :: later) = turn.continues := by
  obtain ⟨line, hline, hcontinues, -⟩ := exists_line_of_text hlinked htext
  rw [beginsContinuing, List.filterMap_cons_some hline]
  exact hcontinues

/-- A turn without a text continues nothing, and leaves the first line to the later turns. -/
theorem of_text?_eq_none (later : List Turn) (htext : turn.text? = none) :
    turn.continues = false ∧ (turn :: later).filterMap line? = later.filterMap line? := by
  have hline : turn.line? = none := by rw [line?, htext, Option.bind_none]
  exact ⟨by rw [continues, htext, Option.any_none], List.filterMap_cons_none hline⟩

/-- The first turn continues no line if the first line continues none. -/
theorem head?_of_beginsContinuing {turns : List Turn} (hlinked : Linked turns)
    (h : beginsContinuing turns = false) : turns.head?.any Turn.continues = false := by
  cases turns with
  | nil => rfl
  | cons turn later =>
    rw [List.head?_cons, Option.any_some]
    refine Bool.eq_false_iff.mpr fun hcontinuing => ?_
    rw [beginsContinuing_of_text hlinked (isSome_text?_of_continues hcontinuing),
      hcontinuing] at h
    exact absurd h (by simp)

/-- If continuations follow lines at once, the first line continues another just if the first turn
does. -/
theorem beginsContinuing_of_joined {turns : List Turn} (hlinked : Linked turns)
    (hjoined : Joined turns) : beginsContinuing turns = turns.head?.any Turn.continues := by
  induction turns with
  | nil => rfl
  | cons turn later ih =>
    obtain ⟨hnext, hlater⟩ := List.isChain_cons.mp hjoined
    cases htext : turn.text? with
    | some value => exact beginsContinuing_of_text hlinked (by rw [htext]; rfl)
    | none =>
      obtain ⟨hcontinues, hlines⟩ := of_text?_eq_none later htext
      rw [beginsContinuing, hlines, List.head?_cons, Option.any_some, hcontinues]
      -- what follows at once continues nothing, because here is no line
      refine (ih hlinked.2.2 hlater).trans ?_
      rw [Option.any_eq_false]
      intro next hmem
      refine Bool.eq_false_iff.mpr fun hcontinuing => ?_
      exact absurd (hnext next hmem hcontinuing) (by simp [htext])

/-- **Lines are wrapped just if continuations follow lines at once.** This holds of turns whose
first line continues another only if the first turn does. -/
theorem wrapped_iff_joined {turns : List Turn} (hlinked : Linked turns)
    (hfirst : beginsContinuing turns = turns.head?.any Turn.continues) :
    TextLine.Wrapped (turns.filterMap line?) ↔ Joined turns := by
  induction turns with
  | nil => exact ⟨fun _ => List.isChain_nil, fun _ => trivial⟩
  | cons turn later ih =>
    have hlater := hlinked.2.2
    unfold Joined
    rw [List.isChain_cons]
    cases htext : turn.text? with
    | some value =>
      obtain ⟨line, hline, -, hcontinued⟩ := exists_line_of_text hlinked (by rw [htext]; rfl)
      rw [List.filterMap_cons_some hline]
      constructor
      · rintro ⟨hnext, hwrapped⟩
        exact ⟨fun _ _ _ => rfl, (ih hlater (hnext.symm.trans hcontinued)).mp hwrapped⟩
      · rintro ⟨-, hjoined⟩
        have hnext := beginsContinuing_of_joined hlater hjoined
        exact ⟨hcontinued.trans hnext.symm, (ih hlater hnext).mpr hjoined⟩
    | none =>
      -- a turn without a line changes no lines, so it must not stand before a continuation
      obtain ⟨hcontinues, hlines⟩ := of_text?_eq_none later htext
      rw [hlines]
      have hsilent : beginsContinuing later = false := by
        rw [beginsContinuing, ← hlines, ← beginsContinuing, hfirst, List.head?_cons,
          Option.any_some, hcontinues]
      have hnext := head?_of_beginsContinuing hlater hsilent
      have hboth := ih hlater (hsilent.trans hnext.symm)
      refine ⟨fun hwrapped => ⟨fun next hmem hcontinuing => ?_, hboth.mp hwrapped⟩,
        fun hjoined => hboth.mpr hjoined.2⟩
      rw [Option.any_eq_false] at hnext
      exact absurd (hcontinuing.symm.trans (hnext next hmem)) (by simp)

end Turn

/-! ## Siblings in one style -/

/-- The turns of siblings that can be rendered are those of all of them. -/
theorem map_node_turns {world : World} {nesting : Nat} {nodes : List Node} {level after : Level}
    {run : Run}
    (h : (renderNodes world (enterOutline world nesting) nodes level run).result = .ok after) :
    (turns world nesting nodes level run).map (·.node) = nodes := by
  induction nodes generalizing level run with
  | nil => rfl
  | cons node rest ih =>
    obtain ⟨turn, middle, end_, hnode, -, -, hturns, hrest⟩ :=
      turns_cons_of_renderNodes world nesting h
    rw [hturns, List.map_cons, hnode, ih hrest]

/-- Among siblings that set no styles, all lines are in the style that there is for the level in
the beginning. -/
theorem style_of_line? {world : World} {nesting : Nat} {nodes : List Node} {depth : Nat}
    {setting : Setting} {run : Run} {turn : Turn} {line : TextLine}
    (hsteady : ∀ turn ∈ turns world nesting nodes (.fresh depth setting) run,
      turn.setsStyles = false)
    (hturn : turn ∈ turns world nesting nodes (.fresh depth setting) run)
    (hline : turn.line? = some line) : setting.styles.styleAt depth = .ok line.style := by
  obtain ⟨earlier, later, hturns⟩ := List.append_of_mem hturn
  obtain ⟨value, hvalue, hstyle⟩ := Option.bind_eq_some_iff.mp hline
  have hearlier (other : Turn) (hother : other ∈ earlier) : other.setsStyles = false := by
    refine hsteady other ?_
    rw [hturns]
    exact List.mem_append_left _ hother
  -- nothing is to be undone in the beginning, so nothing is brought back
  have hkept : Undoing.broughtBack (Level.fresh depth setting).undoing
      ((earlier ++ [turn]).countP Turn.leads) = none := rfl
  rw [styleAt_ready hturns hearlier hvalue, (undoing_of_turns hturns).1, hkept,
    Option.getD_none] at hstyle
  split at hstyle
  · next style hfound =>
    rw [← Option.some.inj hstyle]
    exact hfound
  · exact absurd hstyle (by simp)

/-- **Lines are closed once, unless something stands before a continuation.** Take siblings that set
no styles and can be rendered, the first line of which leads. Each sibling with a text has a line of
the level, in the one style that there is for it, and what stands before the text is what the style
puts there if the line leads, and as many blanks if it continues another. And every line that leads
is closed once, by the last line that continues it, just if every continuation follows a line at
once. -/
theorem closedOnce_renderSiblings {world : World} {nesting : Nat} {nodes : List Node} {depth : Nat}
    {setting : Setting} {run : Run} {after : Level}
    (hsteady : ∀ node ∈ nodes, ∀ directive,
      node.value.bind Directive.ofValue? = some directive → directive.setsStyles = false)
    (hafter : (renderSiblings world (enterOutline world nesting) nodes (.fresh depth setting)
      run).result = .ok after)
    (hfirst : ∀ line ∈ (Block.textLines (renderSiblings world (enterOutline world nesting) nodes
      (.fresh depth setting) run).blocks).head?, line.continues = false) :
    let lines := Block.textLines (renderSiblings world (enterOutline world nesting) nodes
      (.fresh depth setting) run).blocks
    let all := turns world nesting nodes (.fresh depth setting) run
    all.map (·.node) = nodes ∧ lines = all.filterMap Turn.line? ∧
      (∀ turn ∈ all, turn.text?.isSome = true → ∃ line, turn.line? = some line ∧
        line.source = turn.node.source ∧ setting.styles.styleAt depth = .ok line.style ∧
        line.before = if turn.continues
          then String.ofList (List.replicate line.style.before.length ' ')
          else line.style.before) ∧
      (TextLine.ClosedOnce lines ↔ Turn.Joined all) := by
  intro lines all
  obtain ⟨last, hlast, -⟩ := result_bind_eq_ok.mp hafter
  have hnodes : all.map (·.node) = nodes := map_node_turns hlast
  have hlinked : Turn.Linked all := linked_turns hlast
  have hlines : lines = all.filterMap Turn.line? :=
    textLines_renderSiblings world nesting nodes _ run
  have hsteadyTurns : ∀ turn ∈ all, turn.setsStyles = false := by
    intro turn hturn
    have hnode : turn.node ∈ nodes := hnodes ▸ List.mem_map_of_mem hturn
    exact (Option.any_eq_false _ _).mpr fun directive => hsteady turn.node hnode directive
  refine ⟨hnodes, hlines, fun turn hturn htext => ?_, ?_⟩
  · obtain ⟨line, hline⟩ := Option.isSome_iff_exists.mp ((hlinked.isSome_line? hturn).trans htext)
    obtain ⟨hsource, hcontinues, -⟩ := Turn.of_line?_eq_some hline
    refine ⟨line, hline, hsource, style_of_line? hsteadyTurns hturn hline, ?_⟩
    rw [← hcontinues]
    rfl
  · have hleads : ∀ line ∈ (all.filterMap Turn.line?).head?, line.continues = false := by
      rw [← hlines]
      exact hfirst
    have hbegins : Turn.beginsContinuing all = false := by
      rw [Turn.beginsContinuing, Option.any_eq_false]
      exact hleads
    rw [hlines, ← TextLine.wrapped_iff_closedOnce hleads]
    refine Turn.wrapped_iff_joined hlinked ?_
    rw [hbegins, Turn.head?_of_beginsContinuing hlinked hbegins]

/-- A line that is continued at once, with a switch of styles below the continuation, and a comment
before the line that leads next. -/
def sectionsWithAside : List Node :=
  [{ value := some "A", source := "t:1" },
    { value := some " b", source := "t:2",
      children := [{ value := some "!format E", source := "t:3" }, { value := some "x" }] },
    { value := some "!comment c", source := "t:5" }, { value := some "D", source := "t:6" }]

theorem closedOnce_renderSiblings_aside :
    let lines := Block.textLines (renderSiblings bareWorld (enterOutline bareWorld 0)
      sectionsWithAside (.fresh 0 ⟨⟨[sectionStyle]⟩, true⟩) {}).blocks
    lines.map (·.source) = ["t:1", "t:2", "t:6"] ∧ TextLine.ClosedOnce lines := by
  intro lines
  have hsteady : ∀ node ∈ sectionsWithAside, ∀ directive,
      node.value.bind Directive.ofValue? = some directive → directive.setsStyles = false := by
    have hall : ∀ node ∈ sectionsWithAside,
        (node.value.bind Directive.ofValue?).any Directive.setsStyles = false := by
      decide +kernel
    exact fun node hnode => (Option.any_eq_false _ _).mp (hall node hnode)
  have hrenders : (renderSiblings bareWorld (enterOutline bareWorld 0) sectionsWithAside
      (.fresh 0 ⟨⟨[sectionStyle]⟩, true⟩) {}).result.isOk = true := by
    decide +kernel
  have hfirst : ∀ line ∈ lines.head?, line.continues = false := by
    decide +kernel
  cases hafter : (renderSiblings bareWorld (enterOutline bareWorld 0) sectionsWithAside
      (.fresh 0 ⟨⟨[sectionStyle]⟩, true⟩) {}).result with
  | error failure =>
    rw [hafter] at hrenders
    exact absurd hrenders Bool.false_ne_true
  | ok after =>
    obtain ⟨-, -, -, hclosed⟩ := closedOnce_renderSiblings hsteady hafter hfirst
    refine ⟨by decide +kernel, hclosed.mpr ?_⟩
    unfold Turn.Joined
    decide +kernel

/-- A line, and a comment before the line that continues it. -/
def sectionInterrupted : List Node :=
  [{ value := some "A", source := "t:1" }, { value := some "!comment c", source := "t:2" },
    { value := some " b", source := "t:3" }]

/-- The line is closed before the comment, and the line that continues it is closed again. -/
theorem closed_twice_around_comment :
    let outcome := renderSiblings bareWorld (enterOutline bareWorld 0) sectionInterrupted
      (.fresh 0 ⟨⟨[sectionStyle]⟩, true⟩) {}
    Directive.ofValue? "!comment c" = some (.comment "c") ∧
      outcome.result.isOk = true ∧
      (Block.textLines outcome.blocks).map (fun line => (line.continues, line.written)) =
        [(false, "\\section\x7bA\x7d % t:1"), (true, "         b\x7d % t:3")] := by
  decide +kernel

end OutlineTex
