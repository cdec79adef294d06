/-
What holds of every rendering, shown step by step.

Rendering is two recursions, one down the forest and one into the outlines that are
included, and many statements about it hold because they hold of every single step. This
file does the two inductions once. A contract says of a level and a run what may come out
of a step that begins there; it is elementary if it allows the steps that rendering is made
of, one after the other and on the levels that lie within a level. An elementary contract
then holds of rendering nodes, of dispatching a node and of entering an outline.

Contracts speak of outcomes, so they cover the runs that fail, and they see what was
written and reported as well as the level and the run afterwards.
-/
import OutlineTex.Proofs.Rendering.Steps

set_option autoImplicit false

namespace OutlineTex

open Rendering

/-- Whether a directive sets the styles of the level that it stands on. -/
def Directive.setsStyles : Directive → Bool
  | .inclusion .. | .format .. => true
  | _ => false

/-! ## Contracts -/

/-- What may come out of a step, given the level and the run that it begins with. -/
abbrev Contract := Level → Run → Outcome Level → Prop

namespace Contract

variable {contract : Contract}

/-- A step has a contract if what comes out of it is allowed wherever it begins. -/
def Holds (contract : Contract) (step : Level → Rendering Level) : Prop :=
  ∀ level run, contract level run (step level run)

/-- The contract that asks something only of steps that succeed: of the level that they begin
with, of what they write, and of the level that they lead to. -/
def ofSuccess (allowed : Level → List Block → Level → Prop) : Contract := fun level _ outcome =>
  ∀ after, outcome.result = .ok after → allowed level outcome.blocks after

namespace ofSuccess

variable {allowed : Level → List Block → Level → Prop} {level after : Level} {run end_ : Run}
  {blocks : List Block} {events : List Event}

theorem of_ok (h : allowed level blocks after) :
    ofSuccess allowed level run ⟨.ok after, end_, blocks, events⟩ := by
  intro other hother
  obtain rfl : after = other := Except.ok.inj hother
  exact h

theorem of_error {failure : Failure} :
    ofSuccess allowed level run ⟨.error failure, end_, blocks, events⟩ := by
  intro after hafter
  exact absurd hafter (by simp)

/-- Steps one after the other are allowed if what they ask for adds up. -/
theorem inSequence
    (htrans : ∀ {level middle after first second}, allowed level first middle →
      allowed middle second after → allowed level (first ++ second) after)
    {first : Outcome Level} {next : Level → Rendering Level}
    (hfirst : ofSuccess allowed level run first)
    (hnext : ∀ middle, first.result = .ok middle →
      ofSuccess allowed middle first.run (next middle first.run)) :
    ofSuccess allowed level run (first.andThen next) := by
  intro after hafter
  cases hresult : first.result with
  | error failure => simp [Outcome.andThen, hresult] at hafter
  | ok middle =>
    simp only [Outcome.andThen, hresult] at hafter ⊢
    exact htrans (hfirst middle hresult) (hnext middle hresult after hafter)

end ofSuccess

/-- A contract is basic if it allows the steps that leave the level as it is, and sequences. -/
structure Basic (contract : Contract) : Prop where
  still : ∀ level run, contract level run ⟨.ok level, run, [], []⟩
  inSequence : ∀ {level run} {first : Outcome Level} {next : Level → Rendering Level},
    contract level run first →
    (∀ after, first.result = .ok after → contract after first.run (next after first.run)) →
    contract level run (first.andThen next)
  failing : ∀ level run failure, contract level run ⟨.error failure, run, [], []⟩
  reporting : ∀ level run event, event.entered? = none →
    contract level run ⟨.ok level, run, [], [event]⟩
  changing : ∀ level run after, after.included = run.included →
    contract level run ⟨.ok level, after, [], []⟩
  /-- A file is marked when it is included, and if it is to be included only once it was not
  marked before. -/
  entering : ∀ level run event once place, event.entered? = some (once, place) →
    (once = true → run.hasIncluded place = false) →
    contract level run ⟨.ok level, run.mark place, [], [event]⟩
  writing : ∀ level run (lines : List Line), (∀ line ∈ lines, line.isAside = true) →
    contract level run ⟨.ok level, run, lines.map .line, []⟩

/-- A contract is elementary if it allows each of the steps that rendering is made of. -/
structure Elementary (contract : Contract) : Prop extends Basic contract where
  escaping : ∀ level run on, contract level run ⟨.ok { level with escaping := on }, run, [], []⟩
  switching : ∀ {value temporary code} source,
    Directive.ofValue? value = some (.format temporary code) →
    contract.Holds fun level => do
      let styles ← ofExcept (level.styles.update level.depth code)
      report (.switched source styles temporary)
      level.switchStyles styles temporary
  closing : contract.Holds Level.closeRun
  content : ∀ source address value next,
    contract.Holds fun level => level.writeLine source address value next
  enclosing : ∀ {level wrap depth step} run, Enclosure level.depth wrap depth →
    contract.Holds step → contract level run (level.enclose wrap depth step run)

/-- A way of entering outlines has a contract if a level that adopts what is in force behind
the outline has it. -/
def Enters (contract : Contract) (enter : Entering) : Prop :=
  ∀ path, contract.Holds fun level => do
    let setting ← enter path level.depth level.setting
    return level.adopt setting

/-- A way of going on has a contract after directives that set no styles if it does after their
verdicts: that a line is to be written, that nothing is, or that escaping changes. -/
structure Continues (contract : Contract) (resume : Level → Verdict → Rendering Level) : Prop where
  proceed : ∀ value, contract.Holds fun level => resume level (.proceed value)
  done : contract.Holds fun level => resume level .done
  escaping : ∀ on, contract.Holds fun level => resume level (.escaping on)

/-- A way of going on after a verdict has a contract if it does after every verdict. Where
the verdict comes with other styles, the step that leads to them counts as part of it. -/
structure Resumes (contract : Contract) (resume : Level → Verdict → Rendering Level) : Prop where
  proceed : ∀ value, contract.Holds fun level => resume level (.proceed value)
  done : contract.Holds fun level => resume level .done
  escaping : ∀ on, contract.Holds fun level => resume level (.escaping on)
  styles : ∀ {value temporary code} source,
    Directive.ofValue? value = some (.format temporary code) →
    contract.Holds fun level => do
      let styles ← ofExcept (level.styles.update level.depth code)
      report (.switched source styles temporary)
      resume level (.styles styles temporary)
  included : ∀ step : Nat → Setting → Rendering Setting,
    (contract.Holds fun level => do
      let setting ← step level.depth level.setting
      return level.adopt setting) →
    contract.Holds fun level => do
      let setting ← step level.depth level.setting
      resume level (.included setting.styles setting.escaping)

namespace Basic

variable (h : contract.Basic)
include h

/-! ## Sequences -/

theorem bind {first next : Level → Rendering Level} (hfirst : contract.Holds first)
    (hnext : contract.Holds next) : contract.Holds fun level => first level >>= next :=
  fun level run => h.inSequence (hfirst level run) fun after _ => hnext after _

/-- A step that returns something else than a level counts as one that leads to the level on
which the rest goes on. -/
theorem afterStep {α : Type} {first : Rendering α} {next : α → Rendering Level}
    {level middle : Level} {run : Run} {a : α} (hok : (first run).result = .ok a)
    (hfirst : contract level run
      ⟨.ok middle, (first run).run, (first run).blocks, (first run).events⟩)
    (hnext : contract middle (first run).run (next a (first run).run)) :
    contract level run ((first >>= next) run) := by
  have hboth : contract level run (Outcome.andThen
      ⟨.ok middle, (first run).run, (first run).blocks, (first run).events⟩ fun _ => next a) := by
    refine h.inSequence hfirst fun after hafter => ?_
    obtain rfl : middle = after := by simpa using hafter
    exact hnext
  rw [then_of_ok hok]
  exact hboth

theorem afterReport {event : Event} (hevent : event.entered? = none)
    {next : Unit → Rendering Level} {level : Level} {run : Run}
    (hnext : contract level run (next () run)) :
    contract level run ((report event >>= next) run) :=
  h.afterStep rfl (h.reporting level run event hevent) hnext

theorem afterChange {change : Run → Run} {run : Run}
    (hchange : (change run).included = run.included) {next : Unit → Rendering Level}
    {level : Level} (hnext : contract level (change run) (next () (change run))) :
    contract level run ((Rendering.change change >>= next) run) :=
  h.afterStep rfl (h.changing level run _ hchange) hnext

theorem afterEmitAll {lines : List Line} (hlines : ∀ line ∈ lines, line.isAside = true)
    {next : Unit → Rendering Level} {level : Level} {run : Run}
    (hnext : contract level run (next () run)) :
    contract level run ((emitAll lines >>= next) run) :=
  h.afterStep rfl (h.writing level run lines hlines) hnext

theorem afterEmit {line : Line} (hline : line.isAside = true) {next : Unit → Rendering Level}
    {level : Level} {run : Run} (hnext : contract level run (next () run)) :
    contract level run ((emit line >>= next) run) := by
  have hlines : ∀ other ∈ [line], other.isAside = true := by simpa using hline
  exact h.afterEmitAll hlines hnext

theorem afterOfExcept {α : Type} {result : Except Failure α} {next : α → Rendering Level}
    {level : Level} {run : Run}
    (hnext : ∀ a, result = .ok a → contract level run (next a run)) :
    contract level run ((ofExcept result >>= next) run) := by
  cases result with
  | error failure => exact h.failing level run failure
  | ok a => exact h.afterStep rfl (h.still level run) (hnext a rfl)

/-! ## Lines -/

/-- A line is written in the style that there is for it, on a level that is ready for it. If there
is no such style, or no text, that fails before anything is written. -/
theorem writeLine (hrestore : contract.Holds Level.restoreTemporary) {source : String}
    {address : Option String} {next : Option Node}
    (hline : ∀ style value, contract.Holds fun level => do
      let settled ← level.settleRun style source
      emit (.content (settled.textLine style source address value next))
      return settled.pastLine value)
    (value : Option String) :
    contract.Holds fun level => level.writeLine source address value next := by
  intro level run
  cases value with
  | none => exact h.failing level run _
  | some value =>
    simp only [Level.writeLine_some]
    refine h.inSequence ?_ fun ready _ => ?_
    · split
      · exact h.still level run
      · exact hrestore level run
    · exact h.afterOfExcept fun style _ => hline style value ready _

/-! ## Files -/

variable (world : World) {enter : Entering}

theorem includeFile (henter : contract.Enters enter) (source : String) (once : Bool)
    (name : String) : contract.Holds fun level => do
      let setting ← includeFile world enter source level.depth once name level.setting
      return level.adopt setting := by
  intro level run
  simp only [OutlineTex.includeFile]
  by_cases hnul : (includedPath source name).hasNul = true
  · rw [if_pos hnul]
    exact h.failing level run _
  rw [if_neg hnul, bind_assoc]
  refine h.afterStep rfl (h.still level run) ?_
  show contract level run _
  by_cases hskip : (once && run.hasIncluded ((includedPath source name).resolve world.files.cwd))
      = true
  · rw [if_pos hskip, bind_assoc]
    exact h.afterReport rfl (h.still level run)
  · have hunmarked : once = true →
        run.hasIncluded ((includedPath source name).resolve world.files.cwd) = false := by
      rintro rfl
      simpa using hskip
    rw [if_neg hskip, bind_assoc]
    by_cases houtline : world.isOutlineName name = true
    · -- marking the file and reporting it is one elementary step
      simp only [if_pos houtline, bind_assoc]
      rw [← bind_assoc]
      exact h.afterStep rfl (h.entering level run _ once _ rfl hunmarked) (henter _ level _)
    · simp only [if_neg houtline, bind_assoc]
      rw [← bind_assoc]
      refine h.afterStep rfl (h.entering level run _ once _ rfl hunmarked) ?_
      refine h.afterOfExcept fun lines _ => h.afterEmitAll (fun line hline => ?_) (h.still level _)
      obtain ⟨text, -, rfl⟩ := List.mem_map.mp hline
      rfl

/-- Each file goes on with what is in force behind the one before it, so a level that adopts
that in between does as well. -/
theorem includeFiles (henter : contract.Enters enter) (source : String) (once : Bool)
    (names : List String) : contract.Holds fun level => do
      let setting ← OutlineTex.includeFiles world enter source level.depth once names level.setting
      return level.adopt setting := by
  induction names with
  | nil => exact h.still
  | cons name rest ih =>
    have hboth := h.bind (h.includeFile world henter source once name) ih
    intro level run
    simpa only [OutlineTex.includeFiles, bind_assoc, pure_bind, Level.setting_adopt,
      Level.depth_adopt, Level.adopt_adopt] using hboth level run

/-! ## Directives -/

theorem evaluate (block : ScriptBlock)
    {next : Except ScriptFault (List String) → Rendering Level} {level : Level} {run : Run}
    (hnext : ∀ answer after, contract level after (next answer after)) :
    contract level run ((world.evaluate block >>= next) run) := by
  simp only [World.evaluate, bind_assoc]
  refine h.afterStep rfl (h.still level run) ?_
  refine h.afterChange rfl ?_
  cases world.evaluator with
  | disabled => exact hnext _ _
  | custom answer => exact hnext _ _
  | interpreter executable timeout =>
    simp only [bind_assoc]
    refine h.afterReport rfl ?_
    by_cases hnul : (block.launch executable timeout).hasNul = true
    · rw [if_pos hnul]
      exact h.failing level _ _
    · rw [if_neg hnul, bind_assoc]
      exact h.afterChange rfl (h.afterOfExcept fun answer _ => hnext answer _)

theorem runScript (source : String) (block : ScriptBlock) {next : Unit → Rendering Level}
    {level : Level} {run : Run} (hnext : ∀ after, contract level after (next () after)) :
    contract level run ((OutlineTex.runScript world source block >>= next) run) := by
  have hscript : ∀ (lines : List String) (after : Run),
      contract level after ((emitAll (lines.map .script) >>= next) after) := by
    intro lines after
    refine h.afterEmitAll (fun line hline => ?_) (hnext after)
    obtain ⟨text, -, rfl⟩ := List.mem_map.mp hline
    rfl
  simp only [OutlineTex.runScript, bind_assoc]
  refine h.evaluate world block fun answer after => ?_
  cases answer with
  | ok lines => exact hscript lines after
  | error fault =>
    simp only [bind_assoc]
    exact h.afterReport rfl (hscript _ after)

theorem writeComment (text : String) (children : List Node) {next : Unit → Rendering Level}
    {level : Level} {run : Run} (hnext : contract level run (next () run)) :
    contract level run ((level.writeComment text children >>= next) run) := by
  rw [Level.writeComment_eq]
  refine h.afterEmitAll (fun line hline => ?_) hnext
  obtain ⟨_, _, rfl⟩ := Level.eq_comment_of_mem_commentBlock hline
  rfl

/-- Dispatching a node that sets no styles, and going on after the verdict, has the contract if the
way of going on does. No outline is entered for such a node. The cases are the directives. -/
theorem dispatch_of_steady {resume : Level → Verdict → Rendering Level}
    (hresume : contract.Continues resume) {node : Node}
    (hsteady : (node.value.bind Directive.ofValue?).any Directive.setsStyles = false) :
    contract.Holds fun level => OutlineTex.dispatch world enter level node >>= resume level := by
  intro level run
  cases hdirective : node.value.bind Directive.ofValue? with
  | none =>
    simp only [OutlineTex.dispatch, hdirective, pure_bind]
    exact hresume.proceed node.value level run
  | some directive =>
    rw [hdirective, Option.any_some] at hsteady
    simp only [OutlineTex.dispatch, hdirective, bind_assoc]
    refine h.afterReport rfl ?_
    cases directive with
    | inclusion once names => exact absurd hsteady (by simp [Directive.setsStyles])
    | format temporary code => exact absurd hsteady (by simp [Directive.setsStyles])
    | verbatim text =>
      simp only [carryOut, bind_assoc, pure_bind]
      refine h.afterEmitAll (fun line hline => ?_) (hresume.done level run)
      obtain ⟨copied, -, rfl⟩ := List.mem_map.mp hline
      rfl
    | preamble =>
      simp only [carryOut, pure_bind]
      exact hresume.done level run
    | showPreliminary =>
      simp only [carryOut, bind_assoc, pure_bind]
      exact h.afterChange rfl (hresume.done level _)
    | comment text =>
      simp only [carryOut, bind_assoc, pure_bind]
      exact h.writeComment text node.children (hresume.done level run)
    | preliminary text =>
      simp only [carryOut, bind_assoc]
      refine h.afterStep rfl (h.still level run) ?_
      show contract level run _
      by_cases hshow : run.showPreliminary = true
      · simp only [if_pos hshow, pure_bind]
        exact hresume.proceed (some text) level run
      · simp only [if_neg hshow, bind_assoc, pure_bind]
        exact h.writeComment _ node.children (hresume.done level run)
    | escaping on =>
      simp only [carryOut, pure_bind]
      exact hresume.escaping on level run
    | script verbose code =>
      simp only [carryOut, bind_assoc, pure_bind]
      exact h.runScript world node.source _ fun after => hresume.done level after

/-- Dispatching a node and going on after the verdict has the contract if the way of going on
does. What is left to show are the directives that set styles. -/
theorem dispatch (henter : contract.Enters enter) {resume : Level → Verdict → Rendering Level}
    (hresume : contract.Resumes resume) (node : Node) :
    contract.Holds fun level => OutlineTex.dispatch world enter level node >>= resume level := by
  cases hsteady : (node.value.bind Directive.ofValue?).any Directive.setsStyles with
  | false =>
    exact h.dispatch_of_steady world ⟨hresume.proceed, hresume.done, hresume.escaping⟩ hsteady
  | true =>
    obtain ⟨directive, hdirective, hsets⟩ := (Option.any_eq_true _ _).mp hsteady
    intro level run
    simp only [OutlineTex.dispatch, hdirective, bind_assoc]
    refine h.afterReport rfl ?_
    cases directive with
    | inclusion once names =>
      simp only [carryOut, bind_assoc, pure_bind]
      refine h.afterEmit rfl ?_
      exact hresume.included
        (fun depth => OutlineTex.includeFiles world enter node.source depth once names)
        (h.includeFiles world henter node.source once names) level run
    | format temporary code =>
      -- where the code comes from matters: a directive has none that spells no style
      obtain ⟨value, -, hvalue⟩ := Option.bind_eq_some_iff.mp hdirective
      simp only [carryOut, bind_assoc, pure_bind]
      exact hresume.styles node.source hvalue level run
    | _ => exact absurd hsets (by simp [Directive.setsStyles])

end Basic

/-! ## The forest -/

namespace Elementary

variable (h : contract.Elementary) (world : World) {enter : Entering}
include h

theorem renderBelow {nodes : List Node}
    (hnodes : contract.Holds (OutlineTex.renderNodes world enter nodes)) :
    contract.Holds (OutlineTex.renderBelow world enter nodes) := by
  intro level run
  rw [OutlineTex.renderBelow]
  by_cases hempty : nodes.isEmpty = true
  · rw [if_pos hempty]
    exact h.still level run
  · rw [if_neg hempty, Level.descend_eq]
    exact h.enclosing run .below hnodes

theorem renderLine {node : Node}
    (hsubtree : contract.Holds (OutlineTex.renderNodes world enter node.subtree))
    (value : Option String) (next : Option Node) :
    contract.Holds fun level => OutlineTex.renderLine world enter node value next level := by
  simp only [OutlineTex.renderLine]
  exact h.bind (h.content node.source node.link? value next) (h.renderBelow world hsubtree)

/-- After a verdict, rendering goes on with the line of the node or without one. -/
theorem resumes_renderNode {node : Node}
    (hsubtree : contract.Holds (OutlineTex.renderNodes world enter node.subtree))
    (next : Option Node) : contract.Resumes fun level verdict =>
      match verdict with
      | .proceed value => OutlineTex.renderLine world enter node value next level
      | verdict => level.follow verdict where
  proceed value := h.renderLine world hsubtree value next
  done := h.still
  escaping on level run := h.escaping level run on
  styles source hvalue := h.switching source hvalue
  included _ hstep := hstep

theorem renderNode (henter : contract.Enters enter) {node : Node}
    (hsubtree : contract.Holds (OutlineTex.renderNodes world enter node.subtree))
    (next : Option Node) : contract.Holds (OutlineTex.renderNode world enter next node) := by
  intro level run
  rw [renderNode_eq]
  exact h.dispatch world henter (h.resumes_renderNode world hsubtree next) node level run

/-- An elementary contract holds of rendering siblings. The induction is on the forest, down
what is rendered below each node. -/
theorem renderNodes (henter : contract.Enters enter) (nodes : List Node) :
    contract.Holds (OutlineTex.renderNodes world enter nodes) := by
  induction nodes using Node.subtree_induction with
  | nil => exact h.still
  | cons node rest ihsubtree ihrest =>
    have hnode := h.renderNode world henter ihsubtree rest.head?
    intro level run
    rw [OutlineTex.renderNodes]
    exact h.bind hnode ihrest level run

theorem renderSiblings (henter : contract.Enters enter) (nodes : List Node) :
    contract.Holds (OutlineTex.renderSiblings world enter nodes) :=
  h.bind (h.renderNodes world henter nodes) h.closing

/-! ## Included outlines -/

/-- An elementary contract holds of entering an outline, however many outlines may be open
within one another. The induction is on that number. -/
theorem enterOutline (nesting : Nat) : contract.Enters (OutlineTex.enterOutline world nesting) := by
  induction nesting with
  | zero => exact fun path level run => h.failing level run _
  | succ nesting ih =>
    intro path level run
    simp only [OutlineTex.enterOutline, OutlineTex.renderSiblings, bind_assoc, pure_bind]
    refine h.afterOfExcept fun nodes _ => ?_
    -- the outline is a level as deep as the one that it is included on
    exact h.enclosing run (.included path) (h.renderNodes world ih nodes)

end Elementary

end Contract

end OutlineTex
