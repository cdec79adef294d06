/-
Two renderings side by side.

Some statements are about two renderings of one forest: in worlds that differ in what scripts
come to, or with more room for outlines within one another. Others are about one rendering,
but speak of the run alone and not of the levels. Both kinds are comparisons of steps here:
relations between two steps that end with values of one type, where a statement about one
rendering compares it with itself.

A comparison is compositional if it holds of the steps that rendering is made of, next to
themselves, and passes from steps to their sequences. What two renderings do with the
directives that include files and that run scripts is left open, because that is where they
differ or where there is something to show; for all the rest of the traversal the induction
is done here, once.
-/
import OutlineTex.Conversion
import OutlineTex.Proofs.Rendering.Steps

set_option autoImplicit false

namespace OutlineTex

open Rendering

/-! ## What needs a look -/

/-- The failure that stands for includes without an end. -/
def Failure.isEndless : Failure → Bool
  | .endlessInclusion _ => true
  | _ => false

/-- A failure that is to be blamed on the files. The others are those of includes without an end and
of scripts whose evaluation was broken off. -/
def Failure.isOfFiles : Failure → Bool
  | .endlessInclusion _ | .brokenDown _ => false
  | _ => true

theorem Failure.isEndless_of_isOfFiles {failure : Failure} (h : failure.isOfFiles = true) :
    failure.isEndless = false := by
  cases failure with
  | endlessInclusion path => exact absurd h (by simp [isOfFiles])
  | _ => rfl

/-- An event about a file that a directive names: that it is asked for, left out or put in. -/
def Event.concernsFile : Event → Bool
  | .recognised _ (.inclusion ..) | .skipped _ | .enteredOutline .. | .enteredFile .. => true
  | _ => false

/-- The directive that an event says was recognised, with its node. -/
def Event.recognised? : Event → Option (Node × Directive)
  | .recognised node directive => some (node, directive)
  | _ => none

/-- An event that says that a script was recognised. -/
def Event.announcesScript : Event → Bool
  | .recognised _ (.script ..) => true
  | _ => false

/-- A line that stands for a script. -/
def Line.isScript : Line → Bool
  | .script _ => true
  | _ => false

/-- A computation whose value is changed fails as it fails. -/
theorem eq_error_of_map {α β : Type} {f : α → β} {result : Except Failure α} {failure : Failure}
    (h : result.map f = .error failure) : result = .error failure := by
  cases result with
  | error cause => rw [← Except.error.inj h]
  | ok a => exact absurd h (by simp [Except.map])

/-- A computation whose failures are named anew fails with one of the new names. -/
theorem exists_of_mapError {α ε : Type} {name : ε → Failure} {result : Except ε α}
    {failure : Failure} (h : result.mapError name = .error failure) :
    ∃ cause, failure = name cause := by
  cases result with
  | error cause => exact ⟨cause, (Except.error.inj h).symm⟩
  | ok a => exact absurd h (by simp [Except.mapError])

/-- A computation succeeds whatever its failures are named. -/
theorem mapError_eq_ok {α ε : Type} {name : ε → Failure} {result : Except ε α} {a : α} :
    result.mapError name = .ok a ↔ result = .ok a := by
  cases result <;> simp [Except.mapError]

namespace StyleStack

variable {failure : Failure}

theorem isOfFiles_of_ofIds {ids : List String} (h : ofIds ids = .error failure) :
    failure.isOfFiles = true := by
  induction ids with
  | nil => exact absurd h (by simp [ofIds])
  | cons id rest ih =>
    rw [ofIds] at h
    split at h
    · rw [← Except.error.inj h]
      rfl
    · exact ih (eq_error_of_map h)

/-- A code that cannot be read names a style that does not exist. -/
theorem isOfFiles_of_ofCode {code : String} (h : ofCode code = .error failure) :
    failure.isOfFiles = true :=
  isOfFiles_of_ofIds (eq_error_of_map h)

theorem isOfFiles_of_styleAt {stack : StyleStack} {depth : Nat}
    (h : stack.styleAt depth = .error failure) : failure.isOfFiles = true := by
  unfold styleAt at h
  split at h
  · exact absurd h (by simp)
  · rw [← Except.error.inj h]
    rfl

end StyleStack

/-- A directive for which the world is asked: one that includes files or runs a script. -/
def Directive.reachesOut : Directive → Bool
  | .inclusion .. | .script .. => true
  | _ => false

/-- Worlds with the same files, in which the same names are those of outlines. -/
structure World.SharesFiles (first second : World) : Prop where
  files : second.files = first.files
  outlineSuffix : second.outlineSuffix = first.outlineSuffix

/-! ## Comparisons -/

/-- What may hold between two steps that end with values of one type. -/
abbrev Comparison := (α : Type) → Rendering α → Rendering α → Prop

namespace Comparison

variable {compare : Comparison}

/-- A comparison is plain if it holds of the steps that a line of the outline is written in, and
passes to sequences of them. None of these looks at the run or changes it. -/
structure Plain (compare : Comparison) : Prop where
  returning : ∀ {α} (a : α), compare α (pure a) (pure a)
  inSequence : ∀ {α β} {first second : Rendering α} {next other : α → Rendering β},
    compare α first second → (∀ a, compare β (next a) (other a)) →
    compare β (first >>= next) (second >>= other)
  failing : ∀ {α} failure, failure.isOfFiles = true → compare α (fail failure) (fail failure)
  restoring : ∀ styles, compare Unit (report (.restored styles)) (report (.restored styles))
  writing : ∀ lines : List Line, (∀ line ∈ lines, line.isScript = false) →
    compare Unit (emitAll lines) (emitAll lines)

/-- A comparison is descending if it holds of each of the steps that rendering a forest is made of,
apart from those of inclusions and scripts, and passes to sequences and to what lies below a
line. -/
structure Descending (compare : Comparison) : Prop extends Plain compare where
  reporting : ∀ event, event.concernsFile = false → event.announcesScript = false →
    compare Unit (report event) (report event)
  showing : compare Unit (change ({ · with showPreliminary := true }))
    (change ({ · with showPreliminary := true }))
  /-- What may be asked of a run are the files included so far and whether preliminary parts
  are shown. -/
  asking : ∀ {α} {first second : Run → Rendering α},
    (∀ run run', run.included = run'.included → run.showPreliminary = run'.showPreliminary →
      compare α (first run) (second run')) →
    compare α (look >>= first) (look >>= second)
  below : ∀ {α} {first second : Rendering α}, compare α first second →
    compare α (within .subtree first) (within .subtree second)

/-- A comparison is compositional if it also passes to blocks of other kinds, those of outlines that
are included. -/
structure Compositional (compare : Comparison) : Prop extends Descending compare where
  enclosing : ∀ {α} {first second : Rendering α} (wrap : List Block → Block),
    (∀ blocks, Block.linesOf [wrap blocks] = Block.linesOf blocks) →
    compare α first second → compare α (within wrap first) (within wrap second)
  below := enclosing .subtree (@Enclosure.below 0).linesOf

/-- A comparison is stepwise if a step may look at the run, and change in it what is no register of
files, and may write whatever lines. -/
structure Stepwise (compare : Comparison) : Prop where
  returning : ∀ {α} (a : α), compare α (pure a) (pure a)
  inSequence : ∀ {α β} {first second : Rendering α} {next other : α → Rendering β},
    compare α first second → (∀ a, compare β (next a) (other a)) →
    compare β (first >>= next) (second >>= other)
  failing : ∀ {α} failure, failure.isEndless = false → compare α (fail failure) (fail failure)
  reporting : ∀ event, event.concernsFile = false → compare Unit (report event) (report event)
  writing : ∀ lines, compare Unit (emitAll lines) (emitAll lines)
  looking : ∀ {α} {first second : Run → Rendering α},
    (∀ run, compare α (first run) (second run)) → compare α (look >>= first) (look >>= second)
  changing : ∀ f : Run → Run, (∀ run, (f run).included = run.included) →
    compare Unit (change f) (change f)

/-- A comparison is transparent if it also passes to whatever blocks, and to steps together with
what they write. -/
structure Transparent (compare : Comparison) : Prop extends Stepwise compare where
  enclosing : ∀ {α} {first second : Rendering α} (wrap : List Block → Block),
    compare α first second → compare α (within wrap first) (within wrap second)
  listening : ∀ {α} {first second : Rendering α},
    compare α first second → compare (α × List Block) (listen first) (listen second)

theorem Stepwise.descending (h : compare.Stepwise)
    (hbelow : ∀ {α} {first second : Rendering α}, compare α first second →
      compare α (within .subtree first) (within .subtree second)) : compare.Descending where
  returning := h.returning
  inSequence := h.inSequence
  failing failure hfailure := h.failing failure (Failure.isEndless_of_isOfFiles hfailure)
  restoring styles := h.reporting (.restored styles) rfl
  writing lines _ := h.writing lines
  reporting event hfile _ := h.reporting event hfile
  showing := h.changing _ fun _ => rfl
  asking hboth := h.looking fun run => hboth run run rfl rfl
  below := hbelow

theorem Transparent.compositional (h : compare.Transparent) : compare.Compositional where
  toDescending := h.descending (h.enclosing .subtree)
  enclosing wrap _ := h.enclosing wrap

namespace Plain

variable (h : compare.Plain)
include h

/-! ## Steps of a level -/

theorem ofExcept {α : Type} {result : Except Failure α}
    (hresult : ∀ failure, result = .error failure → failure.isOfFiles = true) :
    compare α (ofExcept result) (ofExcept result) := by
  cases result with
  | error failure => exact h.failing failure (hresult failure rfl)
  | ok a => exact h.returning a

theorem emit {line : Line} (hline : line.isScript = false) :
    compare Unit (emit line) (emit line) := by
  have hlines : ∀ other ∈ [line], other.isScript = false := by simpa using hline
  exact h.writing [line] hlines

theorem closeRun (level : Level) : compare Level level.closeRun level.closeRun := by
  obtain ⟨depth, styles, escaping, openStyle, inMath, pending, temporaryUsed⟩ := level
  cases openStyle with
  | none => exact h.returning _
  | some style =>
    simp only [Level.closeRun]
    cases style.environment with
    | none => exact h.returning _
    | some environment => exact h.inSequence (h.emit rfl) fun _ => h.returning _

theorem settleRun (level : Level) (style : Style) (source : String) :
    compare Level (level.settleRun style source) (level.settleRun style source) := by
  rw [Level.settleRun_eq]
  refine h.inSequence ?_ fun level => ?_
  · split
    · exact h.closeRun level
    · exact h.returning level
  · unfold Level.openRun
    split
    · exact h.inSequence (h.emit rfl) fun _ => h.returning _
    · exact h.returning level

theorem switchStyles (level : Level) (styles : StyleStack) (temporary : Bool) :
    compare Level (level.switchStyles styles temporary) (level.switchStyles styles temporary) := by
  unfold Level.switchStyles
  exact h.inSequence (h.closeRun level) fun _ => h.returning _

theorem restoreTemporary (level : Level) :
    compare Level level.restoreTemporary level.restoreTemporary := by
  unfold Level.restoreTemporary
  cases level.pending with
  | none => exact h.returning level
  | some styles =>
    dsimp only
    split
    · exact h.returning _
    · refine h.inSequence (h.closeRun level) fun closed => ?_
      exact h.inSequence (h.restoring styles) fun _ => h.returning _

theorem writeLine (level : Level) (source : String) (address value : Option String)
    (next : Option Node) : compare Level (level.writeLine source address value next)
      (level.writeLine source address value next) := by
  cases value with
  | none => exact h.failing _ rfl
  | some value =>
    rw [Level.writeLine_some]
    refine h.inSequence ?_ fun level => ?_
    · split
      · exact h.returning level
      · exact h.restoreTemporary level
    · refine h.inSequence (h.ofExcept fun _ => StyleStack.isOfFiles_of_styleAt) fun style => ?_
      refine h.inSequence (h.settleRun level style source) fun level => ?_
      exact h.inSequence (h.emit rfl) fun _ => h.returning _

theorem writeComment (level : Level) (text : String) (children : List Node) :
    compare Unit (level.writeComment text children) (level.writeComment text children) := by
  rw [Level.writeComment_eq]
  refine h.writing _ fun line hline => ?_
  obtain ⟨_, _, rfl⟩ := Level.eq_comment_of_mem_commentBlock hline
  rfl

theorem follow (level : Level) (verdict : Verdict) :
    compare Level (level.follow verdict) (level.follow verdict) := by
  cases verdict with
  | styles styles temporary => exact h.switchStyles level styles temporary
  | _ => exact h.returning _

/-- Copying a file may fail because it cannot be read, and writes no line of a script. -/
theorem copyFile (world : World) (source : String) (path : Path) (setting : Setting) :
    let copy : Rendering Setting := do
      let lines ← Rendering.ofExcept
        ((world.files.readLines path).mapError (.includedFile source path))
      emitAll (lines.map fun line => .copied (String.ofList line))
      return setting
    compare Setting copy copy := by
  refine h.inSequence (h.ofExcept fun failure hfailure => ?_) fun lines => ?_
  · obtain ⟨fault, rfl⟩ := exists_of_mapError hfailure
    rfl
  · refine h.inSequence (h.writing _ fun line hline => ?_) fun _ => h.returning setting
    obtain ⟨text, -, rfl⟩ := List.mem_map.mp hline
    rfl

end Plain

/-! ## Steps that are not noticed -/

/-- The comparison, of a step with itself, that it leaves the run as it was and recognises no
directive. -/
def quiet : Comparison := fun _ step _ =>
  ∀ run, (step run).run = run ∧ ∀ event ∈ (step run).events, event.recognised? = none

theorem quiet.plain : quiet.Plain where
  returning _ _ := ⟨rfl, fun _ hevent => absurd hevent List.not_mem_nil⟩
  inSequence {α β} first _ next _ hfirst hnext run := by
    obtain ⟨hrun, hevents⟩ := hfirst run
    cases hresult : (first run).result with
    | error failure =>
      rw [then_of_error hresult]
      exact ⟨hrun, hevents⟩
    | ok a =>
      obtain ⟨hrun', hevents'⟩ := hnext a (first run).run
      rw [then_of_ok hresult]
      refine ⟨hrun'.trans hrun, fun event hevent => ?_⟩
      rcases List.mem_append.mp hevent with hevent | hevent
      · exact hevents event hevent
      · exact hevents' event hevent
  failing _ _ _ := ⟨rfl, fun _ hevent => absurd hevent List.not_mem_nil⟩
  restoring styles _ := by
    refine ⟨rfl, fun event hevent => ?_⟩
    obtain rfl := List.mem_singleton.mp hevent
    rfl
  writing _ _ _ := ⟨rfl, fun _ hevent => absurd hevent List.not_mem_nil⟩

/-! ## The traversal -/

/-- What is left open: that the comparison holds of dispatching a directive that includes
files, if all of its references are among the allowed ones, and of dispatching a script. -/
structure Dispatches (compare : Comparison) (allowed : Reference → Prop) (first second : World)
    (enter other : Entering) : Prop where
  inclusion : ∀ {level node once names},
    node.value.bind Directive.ofValue? = some (.inclusion once names) →
    (∀ name ∈ names, allowed ⟨node.source, once, name⟩) →
    compare Verdict (dispatch first enter level node) (dispatch second other level node)
  script : ∀ {level node verbose code},
    node.value.bind Directive.ofValue? = some (.script verbose code) →
    compare Verdict (dispatch first enter level node) (dispatch second other level node)

namespace Descending

variable (h : compare.Descending) {allowed : Reference → Prop} {first second : World}
  {enter other : Entering}
include h

/-- Apart from inclusions and scripts, carrying out a directive does not look at the world. -/
theorem carryOut (level : Level) (node : Node) {directive : Directive}
    (hdirective : directive.reachesOut = false) :
    compare Verdict (carryOut first enter level node directive)
      (carryOut second other level node directive) := by
  cases directive with
  | inclusion once names => exact absurd hdirective (by simp [Directive.reachesOut])
  | script verbose code => exact absurd hdirective (by simp [Directive.reachesOut])
  | verbatim text =>
    refine h.inSequence (h.writing _ fun line hline => ?_) fun _ => h.returning _
    obtain ⟨copied, -, rfl⟩ := List.mem_map.mp hline
    rfl
  | preamble => exact h.returning _
  | showPreliminary => exact h.inSequence h.showing fun _ => h.returning _
  | comment text =>
    exact h.inSequence (h.writeComment level text node.children) fun _ => h.returning _
  | preliminary text =>
    refine h.asking fun run run' _ hshown => ?_
    rw [hshown]
    split
    · exact h.returning _
    · exact h.inSequence (h.writeComment level _ node.children) fun _ => h.returning _
  | escaping on => exact h.returning _
  | format temporary code =>
    refine h.inSequence (h.ofExcept fun failure hupdate => ?_) fun styles => ?_
    · exact StyleStack.isOfFiles_of_ofCode (eq_error_of_map hupdate)
    · exact h.inSequence (h.reporting _ rfl rfl) fun _ => h.returning _

theorem dispatch (hopen : compare.Dispatches allowed first second enter other) (level : Level)
    (node : Node) (hallowed : ∀ reference ∈ node.references, allowed reference) :
    compare Verdict (dispatch first enter level node) (dispatch second other level node) := by
  cases hdirective : node.value.bind Directive.ofValue? with
  | none =>
    simp only [OutlineTex.dispatch, hdirective]
    exact h.returning _
  | some directive =>
    cases directive with
    | inclusion once names =>
      -- the names are references of the node itself, and those come first
      refine hopen.inclusion hdirective fun name hname => hallowed _ ?_
      obtain ⟨value, source, children⟩ := node
      rw [Node.references, Node.ownReferences, hdirective]
      exact List.mem_append_left _ (List.mem_map_of_mem hname)
    | script verbose code => exact hopen.script hdirective
    | _ =>
      simp only [OutlineTex.dispatch, hdirective]
      exact h.inSequence (h.reporting _ rfl rfl) fun _ => h.carryOut level node rfl

/-- Rendering on a level of its own below a line. -/
theorem descend {step next : Level → Rendering Level} (level : Level)
    (hstep : ∀ level, compare Level (step level) (next level)) :
    compare Level (level.descend step) (level.descend next) := by
  refine h.inSequence (h.below ?_) fun _ => h.returning _
  exact h.inSequence (hstep _) fun level => h.closeRun level

theorem renderNode (hopen : compare.Dispatches allowed first second enter other)
    (next : Option Node) (node : Node) (level : Level)
    (hallowed : ∀ reference ∈ node.references, allowed reference)
    (hsubtree : ∀ level, compare Level (renderNodes first enter node.subtree level)
      (renderNodes second other node.subtree level)) :
    compare Level (renderNode first enter next node level)
      (renderNode second other next node level) := by
  rw [renderNode_eq, renderNode_eq]
  refine h.inSequence (h.dispatch hopen level node hallowed) fun verdict => ?_
  -- only the verdict to proceed leads below the node
  cases verdict with
  | proceed value =>
    refine h.inSequence (h.writeLine level _ _ value next) fun level => ?_
    unfold renderBelow
    split
    · exact h.returning level
    · exact h.descend level hsubtree
  | _ => exact h.follow level _

/-- The comparison holds of rendering siblings whose references are allowed. The induction is
on the forest, down what is rendered below each node. -/
theorem renderNodes (hopen : compare.Dispatches allowed first second enter other)
    (nodes : List Node) (hallowed : ∀ reference ∈ Node.referencesOf nodes, allowed reference)
    (level : Level) : compare Level (renderNodes first enter nodes level)
      (renderNodes second other nodes level) := by
  induction nodes using Node.subtree_induction generalizing level with
  | nil => exact h.returning level
  | cons node rest ihsubtree ihrest =>
    have hnode : ∀ reference ∈ node.references, allowed reference :=
      fun reference href => hallowed reference (List.mem_append_left _ href)
    have hsubtree := ihsubtree fun reference href =>
      hnode reference (node.referencesOf_subtree href)
    have hrest := ihrest fun reference href => hallowed reference (List.mem_append_right _ href)
    rw [OutlineTex.renderNodes, OutlineTex.renderNodes]
    exact h.inSequence (h.renderNode hopen rest.head? node level hnode hsubtree) hrest

theorem renderSiblings (hopen : compare.Dispatches allowed first second enter other)
    (nodes : List Node) (hallowed : ∀ reference ∈ Node.referencesOf nodes, allowed reference)
    (level : Level) : compare Level (renderSiblings first enter nodes level)
      (renderSiblings second other nodes level) :=
  h.inSequence (h.renderNodes hopen nodes hallowed level) fun level => h.closeRun level

end Descending

namespace Compositional

variable (h : compare.Compositional) {allowed : Reference → Prop} {first second : World}
include h

/-- Entering an outline is reading it and rendering it with less room below. -/
theorem enterOutline {room space : Nat} (path : Path) (depth : Nat) (setting : Setting)
    (hread : second.readOutline path = first.readOutline path)
    (hopen : compare.Dispatches allowed first second (enterOutline first room)
      (enterOutline second space))
    (hallowed : ∀ nodes, first.readOutline path = .ok nodes →
      ∀ reference ∈ Node.referencesOf nodes, allowed reference) :
    compare Setting (enterOutline first (room + 1) path depth setting)
      (enterOutline second (space + 1) path depth setting) := by
  rw [OutlineTex.enterOutline, OutlineTex.enterOutline, hread]
  -- an outline that cannot be read fails alike in both, and by no want of room
  cases hnodes : first.readOutline path with
  | error fault => exact h.failing (.includedOutline path fault) rfl
  | ok nodes =>
    simp only [Except.mapError, ofExcept_ok, pure_bind]
    have hincluded : Enclosure depth (.outline path) depth := .included path
    refine h.inSequence (h.enclosing _ hincluded.linesOf ?_) fun _ => h.returning _
    exact h.renderSiblings hopen nodes (hallowed nodes hnodes) _

end Compositional

/-! ## Scripts -/

namespace Stepwise

variable (h : compare.Stepwise) (world : World)
include h

theorem evaluate (block : ScriptBlock) :
    compare (Except ScriptFault (List String)) (world.evaluate block) (world.evaluate block) := by
  refine h.looking fun run => h.inSequence (h.changing _ fun _ => rfl) fun _ => ?_
  cases world.evaluator with
  | disabled => exact h.returning _
  | custom answer => exact h.returning _
  | interpreter executable timeout =>
    refine h.inSequence (h.reporting _ rfl) fun _ => ?_
    dsimp only
    split
    · exact h.failing _ rfl
    · refine h.inSequence (h.changing _ fun _ => rfl) fun run => ?_
      cases block.output (block.launch executable timeout)
        (world.processes _ (block.launch executable timeout)) with
      | error cause => exact h.failing (.brokenDown cause) rfl
      | ok answer => exact h.returning answer

/-- In one world, a script is run in the same way by both renderings. -/
theorem script (enter other : Entering) {level : Level} {node : Node} {verbose : Bool}
    {code : String}
    (hdirective : node.value.bind Directive.ofValue? = some (.script verbose code)) :
    compare Verdict (dispatch world enter level node) (dispatch world other level node) := by
  simp only [dispatch, hdirective, carryOut]
  refine h.inSequence (h.reporting _ rfl) fun _ => ?_
  refine h.inSequence (h.inSequence (h.evaluate world _) fun answer => ?_) fun _ => h.returning _
  cases answer with
  | ok lines => exact h.writing _
  | error fault => exact h.inSequence (h.reporting _ rfl) fun _ => h.writing _

end Stepwise

/-! ## Conversions -/

/-- A conversion is a rendering, with steps around it that do not look at the world. -/
theorem Transparent.conversion (h : compare.Transparent) (world : World) (defaultClass : String)
    (options : ConversionOptions) (path : Path)
    (hrender : ∀ nodes setting,
      compare Setting (world.render nodes 0 setting) (world.render nodes 0 setting)) :
    compare Conversion (world.conversion defaultClass options path)
      (world.conversion defaultClass options path) := by
  refine h.inSequence (h.compositional.ofExcept fun failure hfailure => ?_) fun nodes => ?_
  · obtain ⟨fault, rfl⟩ := exists_of_mapError hfailure
    rfl
  · refine h.inSequence (h.compositional.ofExcept fun _ => StyleStack.isOfFiles_of_ofCode) ?_
    refine fun styles => h.inSequence (h.inSequence (h.listening (hrender _ _)) fun _ => ?_) ?_
    · exact h.returning _
    · exact fun lines => h.inSequence (h.reporting _ rfl) fun _ => h.returning _

/-! ## Files that are included alike -/

/-- A comparison is registering if it also holds of marking a file, and of reporting whatever
happens to one. -/
structure Registering (compare : Comparison) : Prop extends Compositional compare where
  marking : ∀ place, compare Unit (change (·.mark place)) (change (·.mark place))
  announcing : ∀ event, event.announcesScript = false →
    compare Unit (report event) (report event)

namespace Registering

variable (h : compare.Registering) {first second : World} {enter other : Entering}
  (hworld : first.SharesFiles second)
  (henter : ∀ path depth setting,
    compare Setting (enter path depth setting) (other path depth setting))
include h hworld henter

theorem includeFile (source : String) (depth : Nat) (once : Bool) (name : String)
    (setting : Setting) : compare Setting (includeFile first enter source depth once name setting)
      (includeFile second other source depth once name setting) := by
  have hname : second.isOutlineName name = first.isOutlineName name := by
    rw [World.isOutlineName, World.isOutlineName, hworld.outlineSuffix]
  unfold OutlineTex.includeFile
  rw [hworld.files, hname]
  dsimp only
  split
  · exact h.failing (.unresolvable _) rfl
  · -- both renderings ask whether the file is registered, and get one answer
    refine h.asking fun run run' hincluded _ => ?_
    rw [Run.hasIncluded, Run.hasIncluded, hincluded]
    split
    · exact h.inSequence (h.announcing _ rfl) fun _ => h.returning setting
    · refine h.inSequence (h.marking _) fun _ => ?_
      split
      · exact h.inSequence (h.announcing _ rfl) fun _ => henter _ _ _
      · exact h.inSequence (h.announcing _ rfl) fun _ => h.copyFile first source _ setting

theorem includeFiles (source : String) (depth : Nat) (once : Bool) (names : List String)
    (setting : Setting) :
    compare Setting (includeFiles first enter source depth once names setting)
      (includeFiles second other source depth once names setting) := by
  induction names generalizing setting with
  | nil => exact h.returning setting
  | cons name rest ih =>
    exact h.inSequence (h.includeFile hworld henter source depth once name setting) ih

/-- If outlines are entered alike, directives that include files are carried out alike. -/
theorem inclusion {level : Level} {node : Node} {once : Bool} {names : List String}
    (hdirective : node.value.bind Directive.ofValue? = some (.inclusion once names)) :
    compare Verdict (dispatch first enter level node) (dispatch second other level node) := by
  simp only [dispatch, hdirective, carryOut]
  refine h.inSequence (h.announcing _ rfl) fun _ => h.inSequence (h.emit rfl) fun _ => ?_
  exact h.inSequence (h.includeFiles hworld henter _ _ _ _ _) fun _ => h.returning _

end Registering

/-! ## Worlds that share their files -/

/-- A comparison joins two worlds if it holds of running a script in the one and in the other, and
of having no room for one more outline. -/
structure Joins (compare : Comparison) (first second : World) : Prop where
  script : ∀ {enter other level node verbose code},
    node.value.bind Directive.ofValue? = some (.script verbose code) →
    compare Verdict (dispatch first enter level node) (dispatch second other level node)
  endless : ∀ path,
    compare Setting (fail (.endlessInclusion path)) (fail (.endlessInclusion path))

namespace Registering

variable (h : compare.Registering) {first second : World} (hworld : first.SharesFiles second)
  (hjoins : compare.Joins first second)
include h hworld hjoins

theorem dispatches {enter other : Entering}
    (henter : ∀ path depth setting,
      compare Setting (enter path depth setting) (other path depth setting)) :
    compare.Dispatches (fun _ => True) first second enter other where
  inclusion hdirective _ := h.inclusion hworld henter hdirective
  script hdirective := hjoins.script hdirective

/-- Outlines are entered alike, however many may be open within one another. -/
theorem entersAlike (room : Nat) (path : Path) (depth : Nat) (setting : Setting) :
    compare Setting (enterOutline first room path depth setting)
      (enterOutline second room path depth setting) := by
  induction room generalizing path depth setting with
  | zero => exact hjoins.endless path
  | succ room ih =>
    have hread : second.readOutline path = first.readOutline path := by
      rw [World.readOutline, World.readOutline, hworld.files]
    exact h.enterOutline path depth setting hread (h.dispatches hworld hjoins ih)
      fun _ _ _ _ => trivial

theorem siblingsAlike (room : Nat) (nodes : List Node) (level : Level) :
    compare Level (OutlineTex.renderSiblings first (OutlineTex.enterOutline first room) nodes level)
      (OutlineTex.renderSiblings second (OutlineTex.enterOutline second room) nodes level) :=
  h.renderSiblings (h.dispatches hworld hjoins (h.entersAlike hworld hjoins room)) nodes
    (fun _ _ => trivial) level

/-- A forest is rendered alike in both worlds, because they have the same room. -/
theorem rendersAlike (nodes : List Node) (depth : Nat) (setting : Setting) :
    compare Setting (first.render nodes depth setting) (second.render nodes depth setting) := by
  have hroom : second.nestingBound = first.nestingBound := by
    rw [World.nestingBound, World.nestingBound, hworld.files]
  unfold World.render World.enter
  rw [hroom]
  refine h.inSequence ?_ fun level => h.returning _
  exact h.siblingsAlike hworld hjoins first.nestingBound nodes _

end Registering

end Comparison

end OutlineTex
