/-
The turns of siblings.

Siblings are rendered one after the other on one level, and each of them has its turn there: it is
looked at together with the sibling behind it, and goes on from the level that the turn before has
left. What is below a sibling, or is included by it, is rendered on levels of its own. This file
lists the turns and says what each of them does to the level and to its lines.

A turn either has a text, and then it writes one line of the outline on the level, or it has none,
and then it writes no such line whatever else it writes. As to the level, a turn with a text may
undo a temporary switch of styles before its line is written; what is below the line changes the
styles in force only below the depth of the level. A turn without a text changes the styles only if
it is a switch, or includes files.
-/
import OutlineTex.Proofs.Directive.Forms
import OutlineTex.Proofs.Rendering.Scope
import OutlineTex.Proofs.Rendering.Visits

set_option autoImplicit false

namespace OutlineTex

open Rendering

/-! ## Lines of the outline -/

/-- The line of the outline that a line is, if it is one. -/
def Line.text? : Line → Option TextLine
  | .content line => some line
  | _ => none

namespace Block

theorem ownLines_append (first second : List Block) :
    ownLines (first ++ second) = ownLines first ++ ownLines second :=
  List.filterMap_append

theorem ownLines_map_line (lines : List Line) : ownLines (lines.map .line) = lines := by
  rw [ownLines, List.filterMap_map]
  exact List.filterMap_some

/-- The lines of the outline that a level writes itself. -/
def textLines (blocks : List Block) : List TextLine :=
  (ownLines blocks).filterMap Line.text?

theorem textLines_append (first second : List Block) :
    textLines (first ++ second) = textLines first ++ textLines second := by
  rw [textLines, ownLines_append, List.filterMap_append]
  rfl

/-- Lines that open and close lists, and lines aside, are no lines of the outline. -/
theorem textLines_map_line {lines : List Line} (h : ∀ line ∈ lines, line.text? = none) :
    textLines (lines.map .line) = [] := by
  rw [textLines, ownLines_map_line, List.filterMap_eq_nil_iff]
  exact h

end Block

theorem Line.text?_of_isAside {line : Line} (h : line.isAside = true) : line.text? = none := by
  cases line with
  | content line => exact absurd h (by simp [isAside])
  | _ => rfl

/-! ## Steps that write no line of the outline -/

/-- A contract is lenient if lists and styles are nothing to it: a step that writes no line of the
outline is allowed, whatever becomes of the list that is open, of the styles, and of what they are
to be switched back to. -/
structure Contract.Lenient (contract : Contract) : Prop extends Contract.Basic contract where
  arranging : ∀ (level : Level) (run : Run) (styles : StyleStack) (openStyle : Option Style)
    (pending : Option StyleStack) (temporaryUsed : Bool) (lines : List Line) (events : List Event),
    (∀ line ∈ lines, line.text? = none) →
    contract level run ⟨.ok { level with styles, openStyle, pending, temporaryUsed }, run,
      lines.map .line, events⟩

namespace Contract.Lenient

variable {contract : Contract} (h : contract.Lenient)
include h

theorem silent (level : Level) (run : Run) (styles : StyleStack) (openStyle : Option Style)
    (pending : Option StyleStack) (temporaryUsed : Bool) (events : List Event) :
    contract level run
      ⟨.ok { level with styles, openStyle, pending, temporaryUsed }, run, [], events⟩ :=
  h.arranging level run styles openStyle pending temporaryUsed [] events fun _ hline =>
    absurd hline List.not_mem_nil

theorem closeRun : contract.Holds Level.closeRun := by
  intro level run
  rw [Level.closeRun]
  cases level.openStyle with
  | none => exact h.still level run
  | some style =>
    dsimp only
    cases style.environment with
    | none => exact h.silent level run level.styles none _ _ []
    | some environment =>
      have hclosing : ∀ line ∈ [Line.closing level.depth style environment], line.text? = none := by
        simp [Line.text?]
      exact h.arranging level run level.styles none _ _ _ [] hclosing

theorem openRun (style : Style) (source : String) :
    contract.Holds (Level.openRun style source) := by
  intro level run
  rw [Level.openRun]
  cases style.environment with
  | none => exact h.still level run
  | some environment =>
    cases level.openStyle with
    | some current => exact h.still level run
    | none =>
      have hopening : ∀ line ∈ [Line.opening level.depth style environment source],
          line.text? = none := by
        simp [Line.text?]
      exact h.arranging level run level.styles (some style) _ _ _ [] hopening

theorem settleRun (style : Style) (source : String) :
    contract.Holds fun level => level.settleRun style source := by
  intro level run
  simp only [Level.settleRun_eq]
  refine h.inSequence ?_ fun closed _ => h.openRun style source closed _
  split
  · exact h.closeRun level run
  · exact h.still level run

theorem switchStyles (styles : StyleStack) (temporary : Bool) :
    contract.Holds fun level => level.switchStyles styles temporary := by
  intro level run
  unfold Level.switchStyles
  refine h.inSequence (h.closeRun level run) fun closed _ => ?_
  split
  · exact h.silent closed _ styles _ _ false []
  · exact h.silent closed _ styles _ _ _ []

theorem restoreTemporary : contract.Holds Level.restoreTemporary := by
  intro level run
  rw [Level.restoreTemporary]
  cases level.pending with
  | none => exact h.still level run
  | some styles =>
    dsimp only
    split
    · exact h.silent level run _ _ _ true []
    · refine h.inSequence (h.closeRun level run) fun closed _ => ?_
      exact h.silent closed _ styles _ none false _

/-- A directive that switches styles either fails to read its code, or switches. -/
theorem switching (source code : String) (temporary : Bool) :
    contract.Holds fun level => (do
      let styles ← ofExcept (level.styles.update level.depth code)
      report (.switched source styles temporary)
      level.switchStyles styles temporary) := by
  intro level run
  refine h.afterOfExcept fun styles _ => h.afterReport rfl ?_
  exact h.switchStyles styles temporary level run

end Contract.Lenient

/-- The contract that no line of the outline is written on the level itself. -/
def wordless : Contract := fun _ _ outcome => Block.textLines outcome.blocks = []

namespace wordless

theorem lenient : wordless.Lenient where
  still _ _ := rfl
  inSequence {level run first next} hfirst hnext := by
    unfold wordless Outcome.andThen
    cases hresult : first.result with
    | error failure => exact hfirst
    | ok after =>
      dsimp only
      rw [Block.textLines_append, hfirst, hnext after hresult]
      rfl
  failing _ _ _ := rfl
  reporting _ _ _ _ := rfl
  changing _ _ _ _ := rfl
  entering _ _ _ _ _ _ _ := rfl
  writing _ _ _ hlines :=
    Block.textLines_map_line fun line hline => Line.text?_of_isAside (hlines line hline)
  arranging _ _ _ _ _ _ _ _ hlines := Block.textLines_map_line hlines

/-- What an included outline writes are lines of its own level. -/
theorem enters (world : World) (nesting : Nat) :
    wordless.Enters (enterOutline world nesting) := by
  intro path level run
  cases nesting with
  | zero => rfl
  | succ nesting =>
    simp only [enterOutline, renderSiblings, bind_assoc, pure_bind]
    refine lenient.afterOfExcept fun nodes _ => ?_
    show Block.textLines (level.enclose (.outline path) level.depth
      (renderNodes world (enterOutline world nesting) nodes) run).blocks = []
    rw [Level.blocks_enclose]
    rfl

theorem resumes : wordless.Resumes Level.follow where
  proceed _ _ _ := rfl
  done _ _ := rfl
  escaping _ _ _ := rfl
  styles source _ := lenient.switching source _ _
  included _ hstep := hstep

end wordless

/-! ## Lines with a text -/

namespace Level

/-- The level behind a line that may undo a temporary switch: the first such line after the switch
only notes that there was one, and the next one brings back what the switch gave way to. -/
def undone (level : Level) : Level :=
  match level.pending with
  | none => level
  | some styles =>
    if level.temporaryUsed then
      { level with openStyle := none, styles, pending := none, temporaryUsed := false }
    else { level with temporaryUsed := true }

/-- The level on which a line is written. A line that continues another undoes nothing. -/
def ready (level : Level) (value : String) : Level :=
  if Node.isContinuation (some value) then level else level.undone

/-- Undoing a switch concerns nothing but styles. -/
theorem undone_eq (level : Level) : ∃ styles openStyle pending temporaryUsed,
    level.undone = { level with styles, openStyle, pending, temporaryUsed } := by
  unfold undone
  split
  · exact ⟨_, _, _, _, rfl⟩
  · split <;> exact ⟨_, _, _, _, rfl⟩

theorem ready_eq (level : Level) (value : String) : ∃ styles openStyle pending temporaryUsed,
    level.ready value = { level with styles, openStyle, pending, temporaryUsed } := by
  unfold ready
  split
  · exact ⟨_, _, _, _, rfl⟩
  · exact level.undone_eq

/-- The step that makes a level ready for a line. -/
def getReady (value : String) (level : Level) : Rendering Level :=
  if Node.isContinuation (some value) then pure level else level.restoreTemporary

theorem result_getReady (value : String) (level : Level) (run : Run) :
    (level.getReady value run).result = .ok (level.ready value) := by
  unfold getReady ready
  split
  · rfl
  · exact level.result_restoreTemporary run

theorem textLines_getReady (value : String) (level : Level) (run : Run) :
    Block.textLines (level.getReady value run).blocks = [] := by
  unfold getReady
  split
  · rfl
  · exact wordless.lenient.restoreTemporary level run

/-- A line is written in the style that there is for it on the level that is ready. If there is
none, nothing is written. -/
theorem writeLine_ready (level : Level) (source : String) (address : Option String) (value : String)
    (next : Option Node) (run : Run) :
    let outcome := level.writeLine source address (some value) next run
    (∀ failure, (level.ready value).styles.styleAt level.depth = .error failure →
      outcome.result = .error failure ∧ Block.textLines outcome.blocks = []) ∧
    ∀ style, (level.ready value).styles.styleAt level.depth = .ok style →
      Block.textLines outcome.blocks = [level.textLine style source address value next] ∧
        ∃ openStyle inMath,
          outcome.result = .ok { level.ready value with openStyle, inMath } := by
  intro outcome
  have houtcome : outcome = (level.getReady value >>= fun level => do
      let style ← ofExcept (level.styles.styleAt level.depth)
      let level ← level.settleRun style source
      emit (.content (level.textLine style source address value next))
      return level.pastLine value) run := by
    show level.writeLine source address (some value) next run = _
    rw [writeLine_some]
    rfl
  obtain ⟨styles, openStyle, pending, temporaryUsed, hready⟩ := level.ready_eq value
  rw [houtcome, then_of_ok (level.result_getReady value run), hready]
  dsimp only
  rw [Block.textLines_append, textLines_getReady, List.nil_append]
  refine ⟨fun failure hnone => ?_, fun style hstyle => ?_⟩
  · rw [hnone]
    exact ⟨rfl, rfl⟩
  · rw [hstyle, ofExcept_ok, pure_bind, then_of_ok (result_settleRun _ _ _ _)]
    dsimp only
    rw [Block.textLines_append, wordless.lenient.settleRun]
    refine ⟨rfl, ?_⟩
    -- behind the line only math may have changed
    obtain ⟨inMath, hpast⟩ := exists_pastLine _ value
    exact ⟨_, inMath, congrArg Except.ok hpast⟩

end Level

/-! ## Levels that agree down to their depth -/

/-- Levels of one depth with the same styles in force down to it, and with the same switch to be
undone. What is rendered below a line may change the styles below its depth. -/
structure Level.Resembles (level other : Level) : Prop where
  depth : level.depth = other.depth
  styleAt : ∀ k ≤ level.depth, level.styles.styleAt k = other.styles.styleAt k
  pending : level.pending = other.pending
  temporaryUsed : level.temporaryUsed = other.temporaryUsed

namespace Level.Resembles

variable {level other third : Level}

theorem refl (level : Level) : level.Resembles level :=
  ⟨rfl, fun _ _ => rfl, rfl, rfl⟩

theorem trans (h : level.Resembles other) (hother : other.Resembles third) :
    level.Resembles third :=
  ⟨h.depth.trans hother.depth,
    fun k hk => (h.styleAt k hk).trans (hother.styleAt k (h.depth ▸ hk)),
    h.pending.trans hother.pending, h.temporaryUsed.trans hother.temporaryUsed⟩

/-- The switch that is undone is one on both levels, and brings back the same styles. -/
theorem undone (h : level.Resembles other) : level.undone.Resembles other.undone := by
  unfold Level.undone
  rw [h.pending, h.temporaryUsed]
  split
  · exact h
  · split
    · exact ⟨h.depth, fun _ _ => rfl, rfl, rfl⟩
    · exact ⟨h.depth, h.styleAt, rfl, rfl⟩

end Level.Resembles

/-- What is rendered below a line changes the styles in force below its depth only. -/
theorem resembles_of_renderBelow (world : World) (nesting : Nat) {nodes : List Node}
    {level after : Level} {run : Run} (hstyles : level.styles.styles ≠ [])
    (h : (renderBelow world (enterOutline world nesting) nodes level run).result = .ok after) :
    after.Resembles level := by
  unfold renderBelow at h
  split at h
  · obtain rfl := Except.ok.inj h
    exact .refl level
  · rw [Level.descend_eq] at h
    obtain ⟨inner, hinner, rfl⟩ := Level.of_enclose h
    have henter := scopes.elementary.enterOutline world nesting
    have hinside : inner.styles.KeepsAbove (level.depth + 1) level.styles :=
      scopes.keepsAbove (scopes.elementary.renderSiblings world henter nodes) hstyles hinner
    exact ⟨rfl, fun k hk => hinside.2 k (Nat.lt_succ_of_le hk), rfl, rfl⟩

theorem textLines_renderBelow (world : World) (enter : Entering) (nodes : List Node)
    (level : Level) (run : Run) :
    Block.textLines (renderBelow world enter nodes level run).blocks = [] := by
  unfold renderBelow
  split
  · rfl
  · rw [Level.descend_eq, Level.blocks_enclose]
    rfl

/-! ## Turns -/

/-- The text of the line that a visit leads to, if it leads to one: the value of the node, or the
text of a preliminary part that is shown. -/
def Visit.text? (visit : Visit) : Option String :=
  match visit.arrival.directive? with
  | none => visit.node.value
  | some (.preliminary text) => if visit.run.showPreliminary then some text else none
  | some _ => none

/-- The turn of a sibling: the visit of the node, and the sibling behind it. -/
structure Turn extends Visit where
  next : Option Node

namespace Turn

variable (world : World) (nesting : Nat) (turn : Turn)

/-- What comes of a turn. -/
def outcome : Outcome Level :=
  renderNode world (enterOutline world nesting) turn.next turn.node turn.level turn.run

/-- The line of the outline that a turn writes on its level, if it writes one: the line of its
text, in the style that there is for it on the level that is ready. -/
def line? : Option TextLine :=
  turn.text?.bind fun value =>
    match (turn.level.ready value).styles.styleAt turn.level.depth with
    | .ok style =>
      some (turn.level.textLine style turn.node.source turn.node.link? value turn.next)
    | .error _ => none

variable {turn} {after : Level} {directive : Directive} {value : String}

/-- A turn without a text is that of a placeholder or of a directive. -/
theorem text?_eq_none (h : turn.text? = none) : turn.node.value = none ∨
    ∃ directive, turn.arrival.directive? = some directive ∧
      ∀ text, directive = .preliminary text → turn.run.showPreliminary = false := by
  unfold Visit.text? at h
  cases hdirective : turn.arrival.directive? with
  | none => exact .inl (by simpa [hdirective] using h)
  | some directive =>
    refine .inr ⟨directive, rfl, ?_⟩
    rintro text rfl
    simpa [hdirective] using h

/-- A placeholder fails before anything is written. -/
theorem outcome_of_placeholder (h : turn.node.value = none) :
    (turn.outcome world nesting).result =
        .error (.skippedLevel turn.node.source turn.level.depth) ∧
      (turn.outcome world nesting).blocks = [] := by
  rw [outcome, renderNode_eq]
  simp only [dispatch, h]
  exact ⟨rfl, rfl⟩

/-- Looking at a node with a text leaves the run as it was. -/
theorem dispatch_of_text? (h : turn.text? = some value) :
    ∃ events, dispatch world (enterOutline world nesting) turn.level turn.node turn.run =
      ⟨.ok (.proceed (some value)), turn.run, [], events⟩ := by
  unfold Visit.text? at h
  cases hdirective : turn.arrival.directive? with
  | none =>
    have hvalue : turn.node.value = some value := by simpa [hdirective] using h
    have hnone : turn.node.value.bind Directive.ofValue? = none := hdirective
    refine ⟨[], ?_⟩
    simp only [dispatch, hnone]
    rw [hvalue]
    rfl
  | some directive =>
    cases directive with
    | preliminary text =>
      obtain ⟨hshown, rfl⟩ : turn.run.showPreliminary = true ∧ text = value := by
        simpa [hdirective] using h
      exact ⟨_, dispatch_of_shown world _ hdirective hshown⟩
    | _ => simp [hdirective] at h

/-- A turn with a text is that of a line. -/
theorem outcome_of_text? (h : turn.text? = some value) :
    let line := renderLine world (enterOutline world nesting) turn.node (some value) turn.next
      turn.level turn.run
    (turn.outcome world nesting).result = line.result ∧
      (turn.outcome world nesting).blocks = line.blocks := by
  intro line
  obtain ⟨events, hdispatch⟩ := dispatch_of_text? world nesting h
  rw [outcome, renderNode_eq, then_of_ok (congrArg Outcome.result hdispatch), hdispatch]
  exact ⟨rfl, List.nil_append _⟩

/-- A turn of a directive without a text is done with when the directive has been followed. -/
theorem outcome_of_directive (hdirective : turn.arrival.directive? = some directive)
    (hhidden : ∀ text, directive = .preliminary text → turn.run.showPreliminary = false) :
    turn.outcome world nesting =
      (dispatch world (enterOutline world nesting) turn.level turn.node >>= turn.level.follow)
        turn.run := by
  have hproceeds : turn.arrival.proceeds = false := by
    rw [Arrival.proceeds, hdirective]
    cases directive with
    | preliminary text => exact hhidden text rfl
    | _ => rfl
  have hsilent := fun verdict => @dispatch_of_not_proceeds world (enterOutline world nesting)
    turn.level turn.node turn.run hproceeds verdict
  rw [outcome, renderNode_eq]
  cases hresult : (dispatch world (enterOutline world nesting) turn.level turn.node turn.run).result
    with
  | error failure => rw [then_of_error hresult, then_of_error hresult]
  | ok verdict =>
    rw [then_of_ok hresult, then_of_ok hresult]
    cases verdict with
    | proceed value => exact absurd rfl (hsilent _ hresult value)
    | _ => rfl

/-- A turn writes its line, if it has one, and no other line of the outline on its level. -/
theorem textLines_outcome (turn : Turn) :
    Block.textLines (turn.outcome world nesting).blocks = turn.line?.toList := by
  cases htext : turn.text? with
  | some value =>
    obtain ⟨-, hblocks⟩ := outcome_of_text? world nesting htext
    obtain ⟨hnone, hsome⟩ := turn.level.writeLine_ready turn.node.source turn.node.link? value
      turn.next turn.run
    rw [hblocks, line?, htext, Option.bind_some, renderLine]
    cases hstyle : (turn.level.ready value).styles.styleAt turn.level.depth with
    | error failure =>
      obtain ⟨hresult, hlines⟩ := hnone failure hstyle
      rw [then_of_error hresult]
      exact hlines
    | ok style =>
      obtain ⟨hlines, _, _, hresult⟩ := hsome style hstyle
      rw [then_of_ok hresult]
      dsimp only
      rw [Block.textLines_append, hlines, textLines_renderBelow]
      rfl
  | none =>
    rw [line?, htext, Option.bind_none]
    rcases text?_eq_none htext with hvalue | ⟨directive, hdirective, hhidden⟩
    · rw [(outcome_of_placeholder world nesting hvalue).2]
      rfl
    · rw [outcome_of_directive world nesting hdirective hhidden]
      exact wordless.lenient.dispatch world (wordless.enters world nesting) wordless.resumes
        turn.node turn.level turn.run

/-- What is in force behind a turn with a text is, down to the depth of the level, what was in force
when the level was ready for its line. -/
theorem resembles_of_text? (htext : turn.text? = some value)
    (hafter : (turn.outcome world nesting).result = .ok after) :
    after.Resembles (turn.level.ready value) := by
  rw [(outcome_of_text? world nesting htext).1] at hafter
  obtain ⟨written, hwritten, hbelow⟩ := result_bind_eq_ok.mp hafter
  obtain ⟨hnone, hsome⟩ := turn.level.writeLine_ready turn.node.source turn.node.link? value
    turn.next turn.run
  cases hstyle : (turn.level.ready value).styles.styleAt turn.level.depth with
  | error failure => exact absurd ((hnone failure hstyle).1.symm.trans hwritten) (by simp)
  | ok style =>
    obtain ⟨-, openStyle, inMath, hresult⟩ := hsome style hstyle
    obtain rfl := Except.ok.inj (hresult.symm.trans hwritten)
    have hne : ({ turn.level.ready value with openStyle, inMath } : Level).styles.styles ≠ [] :=
      StyleStack.ne_nil_of_styleAt hstyle
    exact (resembles_of_renderBelow world nesting hne hbelow).trans ⟨rfl, fun _ _ => rfl, rfl, rfl⟩

/-- A turn without a text is followed as its directive asks. -/
theorem follow_of_directive (hdirective : turn.arrival.directive? = some directive)
    (hhidden : ∀ text, directive = .preliminary text → turn.run.showPreliminary = false)
    (hafter : (turn.outcome world nesting).result = .ok after) :
    ∃ verdict run, directive.Yields turn.level turn.run.showPreliminary verdict ∧
      (turn.level.follow verdict run).result = .ok after := by
  rw [outcome_of_directive world nesting hdirective hhidden] at hafter
  obtain ⟨verdict, hverdict, hfollow⟩ := result_bind_eq_ok.mp hafter
  have hsome : turn.node.value.bind Directive.ofValue? = some directive := hdirective
  rw [dispatch_of_directive world _ hsome] at hverdict
  exact ⟨verdict, _, yields_of_carryOut world _ hverdict, hfollow⟩

end Turn

/-! ## The turns of siblings -/

/-- The turns of siblings, up to the first one that fails. -/
def turns (world : World) (nesting : Nat) : List Node → Level → Run → List Turn
  | [], _, _ => []
  | node :: rest, level, run =>
    let here : Turn := ⟨⟨level, run, node⟩, rest.head?⟩
    here :: match (here.outcome world nesting).result with
      | .error _ => []
      | .ok after => turns world nesting rest after (here.outcome world nesting).run

section Turns

variable (world : World) (nesting : Nat)

/-- Behind a turn that succeeds, the other siblings have their turns. -/
theorem turns_cons_of_ok {node : Node} {rest : List Node} {level after : Level} {run : Run}
    (h : (Turn.outcome world nesting ⟨⟨level, run, node⟩, rest.head?⟩).result = .ok after) :
    turns world nesting (node :: rest) level run =
      ⟨⟨level, run, node⟩, rest.head?⟩ :: turns world nesting rest after
        (Turn.outcome world nesting ⟨⟨level, run, node⟩, rest.head?⟩).run := by
  rw [turns, h]

variable {world nesting} {nodes : List Node} {level : Level} {run : Run} {here : Turn}
  {earlier later : List Turn}

/-- The first turn is that of the first sibling. There are others behind it only if it succeeds,
and these are the turns of the other siblings. -/
theorem of_turns_eq_cons (h : turns world nesting nodes level run = here :: later) :
    here.level = level ∧ here.run = run ∧ ∃ rest, nodes = here.node :: rest ∧
      here.next = rest.head? ∧ (later ≠ [] → ∃ after,
        (here.outcome world nesting).result = .ok after ∧
          turns world nesting rest after (here.outcome world nesting).run = later) := by
  cases nodes with
  | nil => exact absurd h (by simp [turns])
  | cons node rest =>
    obtain ⟨rfl, hlater⟩ := List.cons.inj h
    refine ⟨rfl, rfl, rest, rfl, rfl, fun hne => ?_⟩
    split at hlater
    · exact absurd hlater.symm hne
    · next after hafter => exact ⟨after, hafter, hlater⟩

/-- What holds of the level in the beginning, and is handed on from turn to turn, holds of the level
of every turn. The statement may speak of the turns before it. -/
theorem turns_induction {P : List Turn → Level → Prop}
    (step : ∀ before turn after, P before turn.level →
      (turn.outcome world nesting).result = .ok after → P (before ++ [turn]) after)
    (hstart : P [] level)
    (h : turns world nesting nodes level run = earlier ++ here :: later) :
    P earlier here.level := by
  induction earlier generalizing nodes level run P with
  | nil =>
    obtain ⟨rfl, -⟩ := of_turns_eq_cons h
    exact hstart
  | cons turn earlier ih =>
    obtain ⟨rfl, -, rest, -, -, hbehind⟩ := of_turns_eq_cons h
    obtain ⟨after, hafter, hrest⟩ := hbehind (by simp)
    refine ih (P := fun before => P (turn :: before)) ?_ (step [] turn after hstart hafter) hrest
    exact fun before => step (turn :: before)

/-- The turns from one of them on are turns of siblings again. -/
theorem turns_of_append (h : turns world nesting nodes level run = earlier ++ here :: later) :
    ∃ rest, turns world nesting rest here.level here.run = here :: later := by
  induction earlier generalizing nodes level run with
  | nil =>
    obtain ⟨rfl, rfl, -⟩ := of_turns_eq_cons h
    exact ⟨nodes, h⟩
  | cons turn earlier ih =>
    obtain ⟨-, -, rest, -, -, hbehind⟩ := of_turns_eq_cons h
    obtain ⟨after, -, hrest⟩ := hbehind (by simp)
    exact ih hrest

variable (world nesting)

theorem filterMap_line?_cons (turn : Turn) (rest : List Turn) :
    (turn :: rest).filterMap Turn.line? = turn.line?.toList ++ rest.filterMap Turn.line? := by
  cases h : turn.line? <;> simp [h]

/-- Siblings that can be rendered have a first turn that succeeds, and the other ones can be
rendered behind it. -/
theorem turns_cons_of_renderNodes {node : Node} {rest : List Node} {level after : Level} {run : Run}
    (h : (renderNodes world (enterOutline world nesting) (node :: rest) level run).result =
      .ok after) :
    ∃ turn middle end_, turn.node = node ∧ turn.next = rest.head? ∧
      (turn.outcome world nesting).result = .ok middle ∧
      turns world nesting (node :: rest) level run = turn :: turns world nesting rest middle end_ ∧
      (renderNodes world (enterOutline world nesting) rest middle end_).result = .ok after := by
  rw [renderNodes] at h
  obtain ⟨middle, hmiddle, hrest⟩ := result_bind_eq_ok.mp h
  exact ⟨⟨⟨level, run, node⟩, rest.head?⟩, middle, _, rfl, rfl, hmiddle,
    turns_cons_of_ok world nesting hmiddle, hrest⟩

/-- **The lines of a level are those of its turns.** Whatever else siblings write, and whether or
not they can be rendered, the lines of the outline that they write on their level are those of
their turns. -/
theorem textLines_renderNodes (nodes : List Node) (level : Level) (run : Run) :
    Block.textLines (renderNodes world (enterOutline world nesting) nodes level run).blocks =
      (turns world nesting nodes level run).filterMap Turn.line? := by
  induction nodes generalizing level run with
  | nil => rfl
  | cons node rest ih =>
    let here : Turn := ⟨⟨level, run, node⟩, rest.head?⟩
    have hhere := Turn.textLines_outcome world nesting here
    rw [renderNodes]
    cases hresult : (here.outcome world nesting).result with
    | error failure =>
      rw [then_of_error hresult, turns, hresult]
      exact hhere
    | ok after =>
      rw [then_of_ok hresult, turns_cons_of_ok world nesting hresult, filterMap_line?_cons]
      dsimp only
      rw [Block.textLines_append, ih]
      exact congrArg (· ++ _) hhere

/-- The list that may be open behind the last sibling is closed by a line that is none of these. -/
theorem textLines_renderSiblings (nodes : List Node) (level : Level) (run : Run) :
    Block.textLines (renderSiblings world (enterOutline world nesting) nodes level run).blocks =
      (turns world nesting nodes level run).filterMap Turn.line? := by
  rw [← textLines_renderNodes]
  show Block.textLines ((renderNodes world (enterOutline world nesting) nodes level >>=
    Level.closeRun) run).blocks = _
  cases hresult : (renderNodes world (enterOutline world nesting) nodes level run).result with
  | error failure => rw [then_of_error hresult]
  | ok last =>
    rw [then_of_ok hresult]
    dsimp only
    rw [Block.textLines_append, wordless.lenient.closeRun last, List.append_nil]

end Turns

end OutlineTex
