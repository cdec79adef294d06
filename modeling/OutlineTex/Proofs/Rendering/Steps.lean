/-
What the steps of a level do.

The operations on a level are sequences of smaller steps, and what one of them makes of a
level is often said without a look at what it writes. This file takes the operations apart
where later proofs need it: closing and opening a list, writing a line, rendering a level
within a level, including files, rendering one list of siblings after another, and writing what
is below a comment.
-/
import OutlineTex.Proofs.Outline.Preorder
import OutlineTex.Render

set_option autoImplicit false

namespace OutlineTex

open Rendering

/-- A sequence succeeds where both its steps do, one after the other. -/
theorem Rendering.result_bind_eq_ok {α β : Type} {step : Rendering α} {next : α → Rendering β}
    {run : Run} {b : β} : ((step >>= next) run).result = .ok b ↔
      ∃ a, (step run).result = .ok a ∧ (next a (step run).run).result = .ok b := by
  cases h : (step run).result with
  | error failure => simp [then_of_error h]
  | ok a => simp [then_of_ok h]

/-- Of the next step in a sequence only what it does in the run that the first one leaves
matters. -/
theorem Rendering.then_congr {α β : Type} {step : Rendering α} {next other : α → Rendering β}
    {run : Run}
    (h : ∀ a, (step run).result = .ok a → next a (step run).run = other a (step run).run) :
    (step >>= next) run = (step >>= other) run := by
  cases hresult : (step run).result with
  | error failure => rw [then_of_error hresult, then_of_error hresult]
  | ok a => rw [then_of_ok hresult, then_of_ok hresult, h a hresult]

theorem Rendering.ofExcept_ok {α : Type} (a : α) : (ofExcept (.ok a) : Rendering α) = pure a := rfl

/-- Lines written one list after the other are written as one. -/
theorem Rendering.emitAll_append (first second : List Line) :
    emitAll (first ++ second) = (do emitAll first; emitAll second) := by
  funext run
  rw [then_of_ok rfl, emitAll, emitAll, emitAll, List.map_append]
  rfl

/-- Lines that are written, and then a value. -/
theorem Rendering.emitAll_then_pure {α : Type} (lines : List Line) (a : α) (run : Run) :
    (do emitAll lines; return a : Rendering α) run = ⟨.ok a, run, lines.map .line, []⟩ := by
  show (⟨.ok a, run, lines.map .line ++ [], []⟩ : Outcome α) = _
  rw [List.append_nil]

theorem Block.linesOf_map_line (lines : List Line) : Block.linesOf (lines.map .line) = lines := by
  induction lines with
  | nil => rfl
  | cons line rest ih => rw [List.map_cons, Block.linesOf, ih, Block.lines, List.singleton_append]

/-! ## Forests -/

/-- A statement holds of every forest if it holds of the empty one, and of a node before its
siblings whenever it holds of what is rendered below the node and of the siblings. What is
rendered there are all the children or all but the first, so the induction on the forest carries
both along. -/
@[elab_as_elim]
theorem Node.subtree_induction {motive : List Node → Prop} (nil : motive [])
    (cons : ∀ node rest, motive node.subtree → motive rest → motive (node :: rest))
    (nodes : List Node) : motive nodes := by
  suffices hboth : motive nodes ∧ motive nodes.tail from hboth.1
  induction nodes using Node.forest_induction with
  | nil => exact ⟨nil, nil⟩
  | cons value source children rest ihchildren ihrest =>
    refine ⟨cons _ rest ?_ ihrest.1, ihrest.1⟩
    rw [Node.subtree]
    split
    · exact ihchildren.2
    · exact ihchildren.1

namespace Node

/-- What is rendered below a node are its last children. -/
theorem subtree_suffix (node : Node) : node.subtree <:+ node.children := by
  unfold subtree
  split
  · exact List.tail_suffix _
  · exact List.suffix_refl _

/-- A web address that is folded into the line of a node is a child of its own, with nothing below
it, and what is rendered below the node are the other children. -/
theorem children_of_link? {node : Node} {address : String} (h : node.link? = some address) :
    isAddress address = true ∧
      ∃ source, node.children = ⟨some address, source, []⟩ :: node.subtree := by
  rw [subtree, h]
  rw [link?] at h
  cases hchildren : node.children with
  | nil => exact absurd h (by simp [hchildren, leadingAddress?])
  | cons first rest =>
    obtain ⟨value, source, below⟩ := first
    rw [hchildren, leadingAddress?] at h
    cases value with
    | none => exact absurd h (by simp)
    | some value =>
      simp only [Option.ite_none_right_eq_some, Bool.and_eq_true] at h
      obtain ⟨⟨hleaf, haddress⟩, hvalue⟩ := h
      obtain rfl : below = [] := List.isEmpty_iff.mp hleaf
      obtain rfl : value = address := Option.some.inj hvalue
      exact ⟨haddress, source, rfl⟩

theorem referencesOf_append (first second : List Node) :
    referencesOf (first ++ second) = referencesOf first ++ referencesOf second := by
  induction first with
  | nil => rfl
  | cons node rest ih => rw [List.cons_append, referencesOf, referencesOf, ih, List.append_assoc]

/-- What is rendered below a node names nothing that the node does not. -/
theorem referencesOf_subtree (node : Node) : referencesOf node.subtree ⊆ node.references := by
  obtain ⟨folded, hchildren⟩ := node.subtree_suffix
  have hall : referencesOf node.subtree ⊆ referencesOf node.children := by
    rw [← hchildren, referencesOf_append]
    exact List.subset_append_right _ _
  obtain ⟨value, source, children⟩ := node
  rw [references]
  exact List.subset_append_of_subset_right _ hall

end Node

/-! ## Lists and styles -/

namespace Level

/-- Closing the list of a level changes nothing else about the level. -/
theorem result_closeRun (level : Level) (run : Run) :
    (level.closeRun run).result = .ok { level with openStyle := none } := by
  obtain ⟨depth, styles, escaping, openStyle, inMath, pending, temporaryUsed⟩ := level
  cases openStyle with
  | none => rfl
  | some style => cases h : style.environment <;> simp [closeRun, h] <;> rfl

/-- Opens the list that a line of the given style belongs to, if none is open. -/
def openRun (style : Style) (source : String) (level : Level) : Rendering Level :=
  match style.environment, level.openStyle with
  | some environment, none => do
    emit (.opening level.depth style environment source)
    return { level with openStyle := some style }
  | _, _ => return level

/-- A list of another style is closed before one is opened. -/
theorem settleRun_eq (level : Level) (style : Style) (source : String) :
    level.settleRun style source =
      (if level.openStyle.any (· != style) then level.closeRun else pure level) >>=
        openRun style source := by
  unfold settleRun
  split <;> rfl

theorem result_openRun (style : Style) (source : String) (level : Level) (run : Run) :
    (openRun style source level run).result = .ok { level with
      openStyle := if style.environment.isSome then level.openStyle.orElse fun _ => some style
        else level.openStyle } := by
  obtain ⟨depth, styles, escaping, openStyle, inMath, pending, temporaryUsed⟩ := level
  unfold openRun
  cases style.environment <;> cases openStyle <;> rfl

/-- Settling the list changes nothing else about a level. A style with an environment finds
its own list open, and a style without one no other list. -/
theorem result_settleRun (level : Level) (style : Style) (source : String) (run : Run) :
    (level.settleRun style source run).result = .ok { level with
      openStyle := if style.environment.isSome then some style
        else level.openStyle.filter (· == style) } := by
  rw [settleRun_eq]
  by_cases hother : level.openStyle.any (· != style) = true
  · rw [if_pos hother, then_of_ok (result_closeRun level run), result_openRun]
    have hnone : level.openStyle.filter (· == style) = none := by
      cases hopen : level.openStyle with
      | none => rfl
      | some current => simpa [hopen] using hother
    rw [hnone]
    rfl
  · have hopen : level.openStyle = none ∨ level.openStyle = some style := by
      cases hopen : level.openStyle with
      | none => exact .inl rfl
      | some current => exact .inr (by simpa [hopen] using hother)
    rw [if_neg hother, then_of_ok rfl, result_openRun]
    rcases hopen with hopen | hopen
    · rw [hopen]
      rfl
    · rw [hopen, Option.filter_some_pos (by simp)]
      rfl

/-- Switching styles closes the list. The styles that were in force are kept for a temporary
switch, unless another one is not undone yet. -/
theorem result_switchStyles (level : Level) (styles : StyleStack) (temporary : Bool) (run : Run) :
    (level.switchStyles styles temporary run).result = .ok (
      if temporary && level.pending.isNone then
        { level with
          openStyle := none, styles, pending := some level.styles, temporaryUsed := false }
      else { level with openStyle := none, styles }) := by
  unfold switchStyles
  rw [then_of_ok (result_closeRun level run)]
  split <;> rfl

/-- The first line after a temporary switch only notes that there was one; the next one
brings back the styles that the switch gave way to. -/
theorem result_restoreTemporary (level : Level) (run : Run) :
    (level.restoreTemporary run).result = .ok (
      match level.pending with
      | none => level
      | some styles =>
        if level.temporaryUsed then
          { level with openStyle := none, styles, pending := none, temporaryUsed := false }
        else { level with temporaryUsed := true }) := by
  unfold restoreTemporary
  cases level.pending with
  | none => rfl
  | some styles =>
    cases level.temporaryUsed with
    | false => rfl
    | true =>
      show ((level.closeRun >>= fun level => do
        report (.restored styles)
        return { level with styles, pending := none, temporaryUsed := false }) run).result = _
      rw [then_of_ok (result_closeRun level run)]
      rfl

end Level

/-! ## Lines -/

namespace Level

/-- The line of a node as a level writes it. -/
def textLine (level : Level) (style : Style) (source : String) (address : Option String)
    (value : String) (next : Option Node) : TextLine where
  depth := level.depth
  style
  continues := Node.isContinuation (some value)
  continued := Node.isContinuation (next.bind (·.value))
  address
  text := textOf value
  escapedFrom := if level.escaping then some level.inMath else none
  source

/-- The level behind the line of a value, where math goes on as the line leaves it. -/
def pastLine (level : Level) (value : String) : Level :=
  if level.escaping then { level with inMath := Math.after level.inMath (textOf value) } else level

theorem exists_pastLine (level : Level) (value : String) :
    ∃ inMath, level.pastLine value = { level with inMath } := by
  unfold pastLine
  split
  · exact ⟨_, rfl⟩
  · exact ⟨level.inMath, rfl⟩

/-- A line is written in four steps: a temporary switch is undone, the style is looked up,
the list is settled, and the text is put down. -/
theorem writeLine_some (level : Level) (source : String) (address : Option String) (value : String)
    (next : Option Node) :
    level.writeLine source address (some value) next =
      (if Node.isContinuation (some value) then pure level else level.restoreTemporary) >>=
        fun level => do
          let style ← ofExcept (level.styles.styleAt level.depth)
          let level ← level.settleRun style source
          emit (.content (level.textLine style source address value next))
          return level.pastLine value := by
  have hpast : ∀ level : Level, (pure (level.pastLine value) : Rendering Level) =
      if level.escaping then
        return { level with inMath := Math.after level.inMath (textOf value) }
      else return level := by
    intro level
    rw [pastLine]
    split <;> rfl
  simp only [writeLine, hpast]
  split <;> rfl

end Level

/-! ## Levels within levels -/

namespace Level

/-- What is in force on a level. -/
def setting (level : Level) : Setting :=
  ⟨level.styles, level.escaping⟩

/-- The level with something else in force. -/
def adopt (level : Level) (setting : Setting) : Level :=
  { level with styles := setting.styles, escaping := setting.escaping }

/-- A level that nothing was written on yet. -/
def fresh (depth : Nat) (setting : Setting) : Level :=
  { depth, styles := setting.styles, escaping := setting.escaping }

/-- Renders a level of its own by the given step, puts its blocks into one, and goes on with
what is in force at its end. -/
def enclose (level : Level) (wrap : List Block → Block) (depth : Nat)
    (step : Level → Rendering Level) : Rendering Level := do
  let inner ← within wrap do
    let inner ← step (fresh depth level.setting)
    inner.closeRun
  return level.adopt inner.setting

@[simp] theorem setting_adopt (level : Level) (setting : Setting) :
    (level.adopt setting).setting = setting := rfl

@[simp] theorem depth_adopt (level : Level) (setting : Setting) :
    (level.adopt setting).depth = level.depth := rfl

@[simp] theorem adopt_adopt (level : Level) (first second : Setting) :
    (level.adopt first).adopt second = level.adopt second := rfl

/-- What a level within a level leaves behind is what is in force at its end. -/
theorem of_enclose {level after : Level} {wrap : List Block → Block} {depth : Nat}
    {step : Level → Rendering Level} {run : Run}
    (h : (level.enclose wrap depth step run).result = .ok after) :
    ∃ inner, ((step (fresh depth level.setting) >>= closeRun) run).result = .ok inner ∧
      level.adopt inner.setting = after := by
  obtain ⟨inner, hinner, hadopt⟩ := result_bind_eq_ok.mp h
  exact ⟨inner, hinner, Except.ok.inj hadopt⟩

/-- What a level within a level writes is put into one block, also where it fails. -/
theorem blocks_enclose (level : Level) (wrap : List Block → Block) (depth : Nat)
    (step : Level → Rendering Level) (run : Run) :
    (level.enclose wrap depth step run).blocks =
      [wrap ((step (fresh depth level.setting) >>= closeRun) run).blocks] := by
  cases h : (within wrap (step (fresh depth level.setting) >>= closeRun) run).result with
  | error failure =>
    rw [enclose, then_of_error h]
    rfl
  | ok inner =>
    rw [enclose, then_of_ok h]
    rfl

theorem descend_eq (level : Level) (step : Level → Rendering Level) :
    level.descend step = level.enclose .subtree (level.depth + 1) step := rfl

end Level

/-- The two ways in which a level lies within one at the given depth: one deeper, below a
line, and as deep, in the place of a directive. -/
inductive Enclosure (outer : Nat) : (List Block → Block) → Nat → Prop
  | below : Enclosure outer .subtree (outer + 1)
  | included (path : Path) : Enclosure outer (.outline path) outer

theorem Enclosure.le {outer depth : Nat} {wrap : List Block → Block}
    (h : Enclosure outer wrap depth) : outer ≤ depth := by
  cases h with
  | below => exact Nat.le_succ outer
  | included => exact Nat.le_refl outer

/-- The lines of a level within another are lines of that one. -/
theorem Enclosure.linesOf {outer depth : Nat} {wrap : List Block → Block}
    (h : Enclosure outer wrap depth) (blocks : List Block) :
    Block.linesOf [wrap blocks] = Block.linesOf blocks := by
  cases h <;> rw [Block.linesOf, Block.linesOf, Block.lines, List.append_nil]

/-! ## Inclusions -/

/-- The file that an event says is included, and whether it is to be included only once. -/
def Event.entered? : Event → Option (Bool × Location)
  | .enteredOutline once place _ _ => some (once, place)
  | .enteredFile once place _ => some (once, place)
  | _ => none

/-- The register with a place added to it. -/
def registered (register : List Location) (place : Location) : List Location :=
  if register.contains place then register else register ++ [place]

theorem included_mark (run : Run) (place : Location) :
    (run.mark place).included = registered run.included place := by
  unfold Run.mark Run.hasIncluded registered
  split <;> rfl

theorem prefix_registered (register : List Location) (place : Location) :
    register <+: registered register place := by
  unfold registered
  split
  · exact List.prefix_refl register
  · exact List.prefix_append register [place]

theorem mem_registered (register : List Location) (place : Location) :
    place ∈ registered register place := by
  unfold registered
  split
  · next h => exact List.contains_iff_mem.mp h
  · exact List.mem_append_right _ List.mem_cons_self

/-- Nothing else is registered with it. -/
theorem eq_or_mem_of_mem_registered {register : List Location} {place other : Location}
    (h : other ∈ registered register place) : other = place ∨ other ∈ register := by
  unfold registered at h
  split at h
  · exact .inr h
  · exact (List.mem_append.mp h).elim .inr fun hnew => .inl (List.mem_singleton.mp hnew)

/-- Puts in a file that is registered by now: an outline is entered, any other file copied. -/
def putIn (world : World) (enter : Entering) (source : String) (depth : Nat) (once : Bool)
    (name : String) (setting : Setting) : Rendering Setting :=
  let path := includedPath source name
  let place := path.resolve world.files.cwd
  if world.isOutlineName name then do
    report (.enteredOutline once place path depth)
    enter path depth setting
  else do
    report (.enteredFile once place path)
    let lines ← ofExcept <| (world.files.readLines path).mapError (.includedFile source path)
    emitAll (lines.map fun line => .copied (String.ofList line))
    return setting

/-- A name with a NUL fails and leaves the run as it was. Any other file that is to be included once
is skipped where it is registered, and in every other case the file is registered first and put in
then. -/
theorem includeFile_eq (world : World) (enter : Entering) (source : String) (depth : Nat)
    (once : Bool) (name : String) (setting : Setting) (run : Run) :
    let path := includedPath source name
    let place := path.resolve world.files.cwd
    path.hasNul = true ∧
        includeFile world enter source depth once name setting run =
          ⟨.error (.unresolvable path), run, [], []⟩ ∨
      once = true ∧ place ∈ run.included ∧
        includeFile world enter source depth once name setting run =
          ⟨.ok setting, run, [], [.skipped path]⟩ ∨
      (once = true → place ∉ run.included) ∧
        includeFile world enter source depth once name setting run =
          putIn world enter source depth once name setting (run.mark place) := by
  intro path place
  cases hnul : path.hasNul with
  | true =>
    refine .inl ⟨rfl, ?_⟩
    rw [includeFile, if_pos hnul]
    rfl
  | false =>
    have hlook : includeFile world enter source depth once name setting run =
        (if once && run.hasIncluded place then do
            report (.skipped path)
            return setting
          else do
            change (·.mark place)
            putIn world enter source depth once name setting : Rendering Setting) run := by
      rw [includeFile, if_neg (by simp [path, hnul] : ¬(includedPath source name).hasNul = true),
        then_of_ok rfl]
      rfl
    rw [hlook]
    by_cases hskip : (once && run.hasIncluded place) = true
    · obtain ⟨honce, hmarked⟩ := Bool.and_eq_true_iff.mp hskip
      rw [if_pos hskip]
      exact .inr (.inl ⟨honce, List.contains_iff_mem.mp hmarked, rfl⟩)
    · rw [if_neg hskip]
      refine .inr (.inr ⟨fun honce hmem => hskip ?_, rfl⟩)
      rw [honce]
      exact List.contains_iff_mem.mpr hmem

/-! ## Siblings one after the other -/

/-- Of the sibling after it, a line asks only whether it continues the line. -/
theorem Level.writeLine_congr_next {next other : Option Node}
    (h : Node.isContinuation (next.bind (·.value)) = Node.isContinuation (other.bind (·.value)))
    (level : Level) (source : String) (address value : Option String) :
    level.writeLine source address value next = level.writeLine source address value other := by
  unfold writeLine
  rw [h]

section Siblings

variable (world : World) (enter : Entering)

theorem renderNode_congr_next {next other : Option Node}
    (h : Node.isContinuation (next.bind (·.value)) = Node.isContinuation (other.bind (·.value)))
    (node : Node) (level : Level) :
    renderNode world enter next node level = renderNode world enter other node level := by
  rw [renderNode_eq, renderNode_eq]
  refine bind_congr fun verdict => ?_
  cases verdict with
  | proceed value =>
    simp only [renderLine]
    rw [Level.writeLine_congr_next h]
  | _ => rfl

/-- Siblings are rendered one list after the other, unless the second list begins with a line that
continues what stands before it. -/
theorem renderNodes_append (first : List Node) {second : List Node}
    (hhead : Node.isContinuation (second.head?.bind (·.value)) = false) (level : Level) :
    renderNodes world enter (first ++ second) level =
      renderNodes world enter first level >>= renderNodes world enter second := by
  induction first generalizing level with
  | nil => rw [renderNodes, pure_bind, List.nil_append]
  | cons node rest ih =>
    have hnext : Node.isContinuation ((rest ++ second).head?.bind (·.value)) =
        Node.isContinuation (rest.head?.bind (·.value)) := by
      cases rest with
      | nil => exact hhead
      | cons => rfl
    rw [List.cons_append, renderNodes, renderNodes, bind_assoc, renderNode_congr_next _ _ hnext]
    exact bind_congr ih

theorem renderSiblings_cons (node : Node) (rest : List Node) (level : Level) :
    renderSiblings world enter (node :: rest) level =
      renderNode world enter rest.head? node level >>= renderSiblings world enter rest := by
  rw [renderSiblings, renderNodes, bind_assoc]
  rfl

theorem renderSiblings_append (first : List Node) {second : List Node}
    (hhead : Node.isContinuation (second.head?.bind (·.value)) = false) (level : Level) :
    renderSiblings world enter (first ++ second) level =
      renderNodes world enter first level >>= renderSiblings world enter second := by
  rw [renderSiblings, renderNodes_append _ _ _ hhead, bind_assoc]
  rfl

/-- An inclusion is repeated as a comment, and the level goes on with what is in force behind its
files. -/
theorem renderNode_inclusion {node : Node} {once : Bool} {names : List String}
    (h : node.value.bind Directive.ofValue? = some (.inclusion once names)) (next : Option Node)
    (level : Level) :
    renderNode world enter next node level = (do
      report (.recognised node (.inclusion once names))
      emit (.echo level.depth (node.value.getD ""))
      let setting ← includeFiles world enter node.source level.depth once names level.setting
      return level.adopt setting) := by
  rw [renderNode_eq, dispatch, h]
  simp only [carryOut, bind_assoc, pure_bind]
  rfl

end Siblings

/-! ## Comments -/

/-- A line that opens or closes no list and is no line of the outline. -/
def Line.isAside : Line → Bool
  | .opening .. | .closing .. | .content _ => false
  | .echo .. | .comment .. | .copied _ | .script _ => true

namespace Level

/-- The comments that nodes of one depth, and what is below them, are written as. -/
def commentLines (depth : Nat) (nodes : List Node) : List Line :=
  (Outline.entriesOf depth nodes).filterMap fun entry =>
    entry.value.map fun value => .comment entry.depth s!"% {value}"

/-- A comment without blanks at its end, and the comments of the nodes below it. -/
def commentBlock (depth : Nat) (text : String) (nodes : List Node) : List Line :=
  .comment depth (String.ofList (Text.trimEnd s!"% {text}".toList)) ::
    commentLines (depth + 1) nodes

theorem eq_comment_of_mem_commentBlock {depth : Nat} {text : String} {nodes : List Node}
    {line : Line} (h : line ∈ commentBlock depth text nodes) :
    ∃ depth comment, line = .comment depth comment := by
  rcases List.mem_cons.mp h with rfl | hbelow
  · exact ⟨_, _, rfl⟩
  · obtain ⟨entry, -, hentry⟩ := List.mem_filterMap.mp hbelow
    obtain ⟨value, -, rfl⟩ := Option.map_eq_some_iff.mp hentry
    exact ⟨_, _, rfl⟩

/-- Nodes are written as comments by writing their comments in document order. -/
theorem annotateAll_eq (depth : Nat) (nodes : List Node) :
    annotateAll depth nodes = emitAll (commentLines depth nodes) := by
  induction nodes using Node.forest_induction generalizing depth with
  | nil => rfl
  | cons value source children rest ihchildren ihrest =>
    have hlines : commentLines depth (⟨value, source, children⟩ :: rest) =
        (value.map fun value => Line.comment depth s!"% {value}").toList ++
          (commentLines (depth + 1) children ++ commentLines depth rest) := by
      rw [commentLines, Outline.entriesOf, Outline.entries, List.cons_append, List.filterMap_cons,
        List.filterMap_append]
      cases value <;> rfl
    rw [annotateAll, ihrest, hlines]
    -- a placeholder has no comment of its own, but what is below it has
    cases value with
    | none =>
      simp only [annotate, ihchildren]
      rw [← emitAll_append]
      rfl
    | some value =>
      simp only [annotate, bind_assoc, ihchildren]
      rw [← emitAll_append]
      exact (emitAll_append [_] _).symm

/-- A comment is written as one block. -/
theorem writeComment_eq (level : Level) (text : String) (nodes : List Node) :
    level.writeComment text nodes = emitAll (commentBlock level.depth text nodes) := by
  rw [writeComment, annotateAll_eq]
  exact (emitAll_append [_] _).symm

end Level

end OutlineTex
