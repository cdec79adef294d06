/-
Math goes on from line to line.

The lines of a level are escaped one after the other. The first of them begins outside math, and
each of the others begins in the state that the one before it leaves, whatever stands in between:
comments, the output of scripts, files, and whole levels of what is below a line or included. This
file says so for every level of a rendering, and says which state that is: the one behind the
earlier lines of the level, taken as one text of several lines.

A level keeps the state itself. The contract that is shown here ties what it keeps to the lines that
it writes: a step takes the state before it to the state behind it through the lines of its own that
are escaped, and through nothing else. A level within a level begins outside math and hands nothing
on, so to the level around it its lines are like no lines at all.
-/
import OutlineTex.Proofs.Escape.Fragments
import OutlineTex.Proofs.Rendering.Wrappers
import OutlineTex.Text.Lines

set_option autoImplicit false

namespace OutlineTex

open Rendering
open OutlineTex.Text

/-! ## Texts of several lines -/

namespace Math

/-- Nothing stands across a line feed, so the state behind lines that are joined is the one that
they leave one after the other. -/
theorem after_joinFeeds (state : Bool) (texts : List (List Char)) :
    after state (joinFeeds texts) = texts.foldl after state := by
  induction texts generalizing state with
  | nil => rfl
  | cons text rest ih =>
    cases rest with
    | nil => rw [joinFeeds, List.intercalate_singleton, List.foldl_cons, List.foldl_nil]
    | cons next rest =>
      have hfeed : isInert '\n' = true := rfl
      rw [joinFeeds, List.intercalate_cons_cons, List.append_assoc, List.singleton_append,
        after_append (apart_of_isInert hfeed text _), after, step_of_isInert hfeed, List.foldl_cons]
      exact ih (after state text)

end Math

/-! ## Lines that the state goes through -/

/-- `Carried before lines after`: the lines that are escaped take the state of math before them to
the state behind them, each from where the one before it leaves off. A line that is not escaped has
no part in it. -/
inductive Carried : Bool → List TextLine → Bool → Prop
  | nil (inMath : Bool) : Carried inMath [] inMath
  | escaped {inMath after : Bool} {line : TextLine} {lines : List TextLine}
      (hfrom : line.escapedFrom = some inMath)
      (hrest : Carried (Math.after inMath line.text) lines after) :
      Carried inMath (line :: lines) after
  | plain {inMath after : Bool} {line : TextLine} {lines : List TextLine}
      (hplain : line.escapedFrom = none) (hrest : Carried inMath lines after) :
      Carried inMath (line :: lines) after

namespace Carried

variable {before middle after : Bool} {first second lines : List TextLine}

theorem append (hfirst : Carried before first middle) (hsecond : Carried middle second after) :
    Carried before (first ++ second) after := by
  induction hfirst with
  | nil => exact hsecond
  | escaped hfrom _ ih => exact .escaped hfrom (ih hsecond)
  | plain hplain _ ih => exact .plain hplain (ih hsecond)

/-- A line that is escaped begins in the state behind the escaped ones among the lines before it.
The induction is on the lines, and at each step the place that is asked for is the first one or one
less far behind. -/
theorem escapedFrom_eq (h : Carried before lines after) {k : Nat} {line : TextLine}
    (hline : lines[k]? = some line) (hescaped : line.escapedFrom.isSome = true) :
    line.escapedFrom = some (((lines.take k).filter (·.escapedFrom.isSome)).map (·.text)
      |>.foldl Math.after before) := by
  induction h generalizing k with
  | nil => exact absurd hline (by simp)
  | @escaped inMath _ first rest hfrom _ ih =>
    cases k with
    | zero =>
      obtain rfl : first = line := by simpa using hline
      exact hfrom
    | succ k =>
      have hfirst : first.escapedFrom.isSome = true := by rw [hfrom]; rfl
      rw [List.getElem?_cons_succ] at hline
      rw [ih hline, List.take_succ_cons, List.filter_cons, if_pos hfirst,
        List.map_cons, List.foldl_cons]
  | @plain inMath _ first rest hplain _ ih =>
    cases k with
    | zero =>
      obtain rfl : first = line := by simpa using hline
      exact absurd hescaped (by simp [hplain])
    | succ k =>
      have hfirst : ¬ first.escapedFrom.isSome = true := by simp [hplain]
      rw [List.getElem?_cons_succ] at hline
      rw [ih hline, List.take_succ_cons, List.filter_cons, if_neg hfirst]

/-- Where all lines are escaped, each begins in the state behind the text that the lines before it
make up. -/
theorem escapedFrom_of_all (h : Carried false lines after)
    (hall : ∀ line ∈ lines, line.escapedFrom.isSome = true) {k : Nat} {line : TextLine}
    (hline : lines[k]? = some line) :
    line.escapedFrom = some
      ((Math.trace false (joinFeeds ((lines.take k).map (·.text)))).getLast?.getD false) := by
  have hearlier : (lines.take k).filter (·.escapedFrom.isSome) = lines.take k :=
    List.filter_eq_self.mpr fun other hother => hall other (List.mem_of_mem_take hother)
  have hmem : line ∈ lines := List.mem_of_getElem? hline
  rw [h.escapedFrom_eq hline (hall line hmem), hearlier, ← Math.after_joinFeeds,
    Math.after_eq_getLast]

end Carried

/-! ## The levels within a block -/

namespace Block

mutual

/-- The levels that lie within a block, each given by the blocks that are written on it. -/
def levels : Block → List (List Block)
  | .line _ => []
  | .subtree blocks => blocks :: levelsOf blocks
  | .outline _ blocks => blocks :: levelsOf blocks

/-- The levels that lie within blocks, each given by the blocks that are written on it. -/
def levelsOf : List Block → List (List Block)
  | [] => []
  | block :: rest => block.levels ++ levelsOf rest

end

theorem levelsOf_append (first second : List Block) :
    levelsOf (first ++ second) = levelsOf first ++ levelsOf second := by
  induction first with
  | nil => rfl
  | cons block rest ih => rw [List.cons_append, levelsOf, levelsOf, ih, List.append_assoc]

theorem levelsOf_map_line (lines : List Line) : levelsOf (lines.map .line) = [] := by
  induction lines with
  | nil => rfl
  | cons line rest ih => rw [List.map_cons, levelsOf, ih, levels, List.append_nil]

end Block

/-- The levels within a block that holds one are this one and those within it. -/
theorem Enclosure.levelsOf {outer depth : Nat} {wrap : List Block → Block}
    (h : Enclosure outer wrap depth) (blocks : List Block) :
    Block.levelsOf [wrap blocks] = blocks :: Block.levelsOf blocks := by
  cases h <;> rw [Block.levelsOf, Block.levelsOf, Block.levels, List.append_nil]

/-! ## The contract -/

/-- A step takes the state that the level keeps through its own lines, and on every level that
lies within what it writes, the state goes through the lines of that level from outside math on. -/
def Level.CarriesTo (level : Level) (blocks : List Block) (after : Level) : Prop :=
  Carried level.inMath (Block.textLines blocks) after.inMath ∧
    ∀ inner ∈ Block.levelsOf blocks, ∃ last, Carried false (Block.textLines inner) last

/-- What writes no line of the outline and leaves the state of math alone. -/
theorem Level.CarriesTo.of_wordless {level after : Level} {lines : List Line}
    (hlines : ∀ line ∈ lines, line.text? = none) (hmath : after.inMath = level.inMath) :
    level.CarriesTo (lines.map .line) after := by
  refine ⟨?_, ?_⟩
  · rw [Block.textLines_map_line hlines, hmath]
    exact .nil level.inMath
  · rw [Block.levelsOf_map_line]
    exact fun inner hinner => absurd hinner List.not_mem_nil

theorem Level.CarriesTo.refl (level : Level) : level.CarriesTo [] level :=
  ⟨.nil level.inMath, fun _ hinner => absurd hinner List.not_mem_nil⟩

theorem Level.CarriesTo.trans {level middle after : Level} {first second : List Block}
    (hfirst : level.CarriesTo first middle) (hsecond : middle.CarriesTo second after) :
    level.CarriesTo (first ++ second) after := by
  refine ⟨?_, fun inner hinner => ?_⟩
  · rw [Block.textLines_append]
    exact hfirst.1.append hsecond.1
  · rw [Block.levelsOf_append] at hinner
    rcases List.mem_append.mp hinner with hinner | hinner
    · exact hfirst.2 inner hinner
    · exact hsecond.2 inner hinner

/-- The contract of the state of math. -/
def carries : Contract :=
  .ofSuccess Level.CarriesTo

namespace carries

theorem lenient : carries.Lenient where
  still level _ := .of_ok (.refl level)
  inSequence hfirst hnext := Contract.ofSuccess.inSequence Level.CarriesTo.trans hfirst hnext
  failing _ _ _ := .of_error
  reporting level _ _ _ := .of_ok (.refl level)
  changing level _ _ _ := .of_ok (.refl level)
  entering level _ _ _ _ _ _ := .of_ok (.refl level)
  writing _ _ _ hlines :=
    .of_ok (.of_wordless (fun line hline => Line.text?_of_isAside (hlines line hline)) rfl)
  arranging _ _ _ _ _ _ _ _ hlines := .of_ok (.of_wordless hlines rfl)

/-- The line itself is what the state goes through, if it is escaped. -/
theorem content (style : Style) (source : String) (address : Option String) (value : String)
    (next : Option Node) : carries.Holds fun level => do
      emit (.content (level.textLine style source address value next))
      return level.pastLine value := by
  intro level run
  refine Contract.ofSuccess.of_ok ⟨?_, fun inner hinner => absurd hinner List.not_mem_nil⟩
  show Carried level.inMath [level.textLine style source address value next]
    (level.pastLine value).inMath
  cases hescaping : level.escaping with
  | true =>
    -- the line begins in the state that the level keeps, and the level goes on behind its text
    rw [Level.pastLine, if_pos hescaping]
    exact .escaped (by rw [Level.textLine, if_pos hescaping]) (.nil _)
  | false =>
    rw [Level.pastLine, if_neg (by simp [hescaping])]
    exact .plain (by rw [Level.textLine, if_neg (by simp [hescaping])]) (.nil _)

theorem writeLine (source : String) (address value : Option String) (next : Option Node) :
    carries.Holds fun level => level.writeLine source address value next :=
  lenient.writeLine lenient.restoreTemporary (fun style value =>
    lenient.bind (lenient.settleRun style source) (content style source address value next)) value

/-- A level within a level begins outside math, and the level around it keeps its state. -/
theorem enclosing {level : Level} {wrap : List Block → Block} {depth : Nat}
    {step : Level → Rendering Level} (run : Run) (hwrap : Enclosure level.depth wrap depth)
    (hstep : carries.Holds step) : carries level run (level.enclose wrap depth step run) := by
  intro after hafter
  obtain ⟨inner, hinner, rfl⟩ := Level.of_enclose hafter
  obtain ⟨hown, hwithin⟩ :=
    lenient.bind hstep lenient.closeRun (.fresh depth level.setting) run inner hinner
  have hwordless : Block.textLines
      [wrap ((step (.fresh depth level.setting) >>= Level.closeRun) run).blocks] = [] := by
    cases hwrap <;> rfl
  rw [Level.blocks_enclose]
  refine ⟨?_, fun level hlevel => ?_⟩
  · rw [hwordless]
    exact .nil _
  · -- one more level lies within: the one that is rendered here
    rw [hwrap.levelsOf] at hlevel
    rcases List.mem_cons.mp hlevel with rfl | hdeeper
    · exact ⟨_, hown⟩
    · exact hwithin level hdeeper

/-- The contract of the state of math is elementary. -/
theorem elementary : carries.Elementary where
  toBasic := lenient.toBasic
  escaping level _ _ := .of_ok (.refl level)
  switching source _ := lenient.switching source _ _
  closing := lenient.closeRun
  content := writeLine
  enclosing := enclosing

end carries

/-! ## The lines of a level -/

/-- A turn that has a line has a text, which is what the line says, and the line begins in the state
that the level keeps if the level is escaping. -/
theorem Turn.exists_text_of_line? {turn : Turn} {line : TextLine} (h : turn.line? = some line) :
    ∃ value, turn.text? = some value ∧ line.text = Level.textOf value ∧
      line.escapedFrom = if turn.level.escaping then some turn.level.inMath else none := by
  obtain ⟨value, hvalue, hline⟩ := Option.bind_eq_some_iff.mp h
  refine ⟨value, hvalue, ?_⟩
  split at hline
  · rw [← Option.some.inj hline]
    exact ⟨rfl, rfl⟩
  · exact absurd hline (by simp)

/-- Lines say what their turns have to say, where no turn is without its line. -/
theorem map_text_line? {turns : List Turn}
    (h : ∀ turn ∈ turns, turn.line?.isSome = turn.text?.isSome) :
    (turns.filterMap Turn.line?).map (·.text) = (turns.filterMap (·.text?)).map Level.textOf := by
  induction turns with
  | nil => rfl
  | cons turn rest ih =>
    have hrest := ih fun other hother => h other (List.mem_cons_of_mem turn hother)
    have hturn := h turn List.mem_cons_self
    cases hline : turn.line? with
    | none =>
      have htext : turn.text? = none := by simpa [hline] using hturn
      simp only [List.filterMap_cons, hline, htext, hrest]
    | some line =>
      obtain ⟨value, htext, hsays, -⟩ := Turn.exists_text_of_line? hline
      simp only [List.filterMap_cons, hline, htext, List.map_cons, hsays, hrest]

/-- **Math goes on through the siblings of a level.** Take siblings that can be rendered, on a level
that was not written on before, where escaping is on for each of those that have a text. The lines
of the level say these texts, and each of them is escaped from the state behind a scan, begun
outside math, of the earlier texts with a line feed between each and the next. Nothing else that
the siblings write has a part in this, and on each of the levels that lie within, whose lines are
all escaped, it is the same. -/
theorem escapedFrom_renderSiblings {world : World} {nesting : Nat} {nodes : List Node} {depth : Nat}
    {setting : Setting} {run : Run} {after : Level}
    (hafter : (renderSiblings world (enterOutline world nesting) nodes (.fresh depth setting)
      run).result = .ok after)
    (hescaping : ∀ turn ∈ turns world nesting nodes (.fresh depth setting) run,
      turn.text?.isSome = true → turn.level.escaping = true) :
    let blocks := (renderSiblings world (enterOutline world nesting) nodes (.fresh depth setting)
      run).blocks
    let texts := ((turns world nesting nodes (.fresh depth setting) run).filterMap (·.text?)).map
      Level.textOf
    (Block.textLines blocks).map (·.text) = texts ∧
      (∀ (k : Nat) (line : TextLine), (Block.textLines blocks)[k]? = some line →
        line.escapedFrom = some
          ((Math.trace false (joinFeeds (texts.take k))).getLast?.getD false)) ∧
      ∀ inner ∈ Block.levelsOf blocks,
        (∀ line ∈ Block.textLines inner, line.escapedFrom.isSome = true) →
        ∀ (k : Nat) (line : TextLine), (Block.textLines inner)[k]? = some line →
          line.escapedFrom = some ((Math.trace false
            (joinFeeds (((Block.textLines inner).take k).map (·.text)))).getLast?.getD false) := by
  intro blocks texts
  obtain ⟨last, hlast, -⟩ := result_bind_eq_ok.mp hafter
  have hlinked := linked_turns hlast
  have hlines : Block.textLines blocks =
      (turns world nesting nodes (.fresh depth setting) run).filterMap Turn.line? :=
    textLines_renderSiblings world nesting nodes _ run
  have htexts : (Block.textLines blocks).map (·.text) = texts := by
    -- every turn has succeeded, so each that has a text has its line
    rw [hlines]
    exact map_text_line? fun turn hturn => hlinked.isSome_line? hturn
  have hescaped : ∀ line ∈ Block.textLines blocks, line.escapedFrom.isSome = true := by
    intro line hline
    rw [hlines] at hline
    obtain ⟨turn, hturn, hturnLine⟩ := List.mem_filterMap.mp hline
    obtain ⟨value, htext, -, hfrom⟩ := Turn.exists_text_of_line? hturnLine
    -- escaping was on when the turn of the line began
    rw [hfrom, if_pos (hescaping turn hturn (by rw [htext]; rfl))]
    rfl
  have henter := carries.elementary.enterOutline world nesting
  obtain ⟨hown, hwithin⟩ := carries.elementary.renderSiblings world henter nodes _ run after hafter
  refine ⟨htexts, fun k line hline => ?_, fun inner hinner hall k line hline => ?_⟩
  · rw [← htexts, ← List.map_take]
    exact hown.escapedFrom_of_all hescaped hline
  · obtain ⟨_, hinside⟩ := hwithin inner hinner
    exact hinside.escapedFrom_of_all hall hline

/-- A world with an outline that leaves math open. -/
def openMathWorld : World :=
  { files := ⟨[], [(["m.otl"], .file (Utf8.encode "x $y"))]⟩ }

/-- Math that is opened in one line, goes on in a continuation of it, and is closed in a preliminary
part. In between are a line below the first one, a comment with math in it, and an outline that
leaves math open. -/
def mathAcross : List Node :=
  [{ value := some "a $b", source := "t:1", children := [{ value := some "c", source := "t:2" }] },
    { value := some "!comment $", source := "t:3" }, { value := some " d|", source := "t:4" },
    { value := some "!showpreliminary", source := "t:5" },
    { value := some "!include m.otl", source := "t:6" },
    { value := some "!preliminary e$ f", source := "t:7" }, { value := some "g|", source := "t:8" }]

theorem escapedFrom_renderSiblings_across :
    let level := Level.fresh 0 ⟨⟨[sectionStyle]⟩, true⟩
    let outcome := renderSiblings openMathWorld (enterOutline openMathWorld 1) mathAcross level {}
    outcome.result.isOk = true ∧
      (∀ turn ∈ turns openMathWorld 1 mathAcross level {},
        turn.text?.isSome = true → turn.level.escaping = true) ∧
      (Block.textLines outcome.blocks).map (·.escapedFrom) =
        [some false, some true, some true, some false] ∧
      ∀ line, (Block.textLines outcome.blocks)[2]? = some line →
        line.escapedFrom = some ((Math.trace false "a $b\nd|".toList).getLast?.getD false) := by
  intro level outcome
  have hok : outcome.result.isOk = true := by decide +kernel
  have hescaping : ∀ turn ∈ turns openMathWorld 1 mathAcross level {},
      turn.text?.isSome = true → turn.level.escaping = true := by
    decide +kernel
  have htexts : (((turns openMathWorld 1 mathAcross level {}).filterMap (·.text?)).map
      Level.textOf).take 2 = ["a $b".toList, "d|".toList] := by
    decide +kernel
  cases hafter : outcome.result with
  | error failure =>
    rw [hafter] at hok
    exact absurd hok Bool.false_ne_true
  | ok after =>
    obtain ⟨-, hstate, -⟩ := escapedFrom_renderSiblings hafter hescaping
    refine ⟨rfl, hescaping, by decide +kernel, fun line hline => ?_⟩
    have hline := hstate 2 line hline
    rw [htexts] at hline
    exact hline

end OutlineTex
