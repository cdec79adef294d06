/-
Rendering an outline.

A node is looked at twice. First it may be a directive, which is carried out and says
how to go on: with a line, without one, with other styles, with escaping switched. Then,
if there is a line to write, it is written, and what lies below the node is rendered at
the next depth, on a level of its own; the styles and the escaping in force at its end
go on above.

Two recursions are at work, and they are kept apart. One goes down the forest and is
recursion on it. The other goes into the outlines that are included; it is no recursion
on the forest, so the rendering of a forest takes it as a parameter, and it is tied at
the end, by recursion on the number of outlines that may still be opened within one
another. That number is large enough for every outline whose plain includes form no
cycle.
-/
import OutlineTex.Inclusion
import OutlineTex.Level
import OutlineTex.World

set_option autoImplicit false

namespace OutlineTex

open OutlineTex.Text
open Rendering

/-- How to go on after a node was looked at as a directive. -/
inductive Verdict
  /-- A line is to be written, with this value. -/
  | proceed (value : Option String)
  /-- The node is done with. -/
  | done
  /-- The styles change, for one line if `temporary`. -/
  | styles (styles : StyleStack) (temporary : Bool)
  /-- The escaping changes. -/
  | escaping (on : Bool)
  /-- Files were included, with these styles and this escaping at their end. -/
  | included (styles : StyleStack) (escaping : Bool)
deriving DecidableEq, Repr

/-- The styles and the escaping in force. -/
structure Setting where
  styles : StyleStack
  escaping : Bool
deriving DecidableEq, Repr, Inhabited

/-- How an outline is rendered in the place of a directive: from its path, the depth and
what is in force there, to what is in force behind it. -/
abbrev Entering := Path → Nat → Setting → Rendering Setting

/-! ## Files -/

/-- Whether a name is that of an outline. -/
def World.isOutlineName (world : World) (name : String) : Bool :=
  world.outlineSuffix.toList.isSuffixOf name.toList

/-- Includes one file, unless it is to be included once and has been already. A name with a NUL
has no place, so it is not even looked up in the register. -/
def includeFile (world : World) (enter : Entering) (source : String) (depth : Nat)
    (once : Bool) (name : String) (setting : Setting) : Rendering Setting := do
  let path := includedPath source name
  let place := path.resolve world.files.cwd
  if path.hasNul then fail (.unresolvable path)
  else if once && (← look).hasIncluded place then
    report (.skipped path)
    return setting
  else
    change (·.mark place)
    if world.isOutlineName name then
      report (.enteredOutline once place path depth)
      enter path depth setting
    else
      report (.enteredFile once place path)
      let lines ← ofExcept <|
        (world.files.readLines path).mapError (.includedFile source path)
      emitAll (lines.map fun line => .copied (String.ofList line))
      return setting

/-- Includes files one after the other. Each goes on with what is in force behind the one
before it. -/
def includeFiles (world : World) (enter : Entering) (source : String) (depth : Nat)
    (once : Bool) : List String → Setting → Rendering Setting
  | [], setting => pure setting
  | name :: rest, setting => do
    let setting ← includeFile world enter source depth once name setting
    includeFiles world enter source depth once rest setting

/-! ## Directives -/

/-- The lines of a script directive: its own text, if there is any, and all values below
it. -/
def scriptLines (code : String) (node : Node) : List String :=
  if code.isEmpty then node.valuesBelow else code :: node.valuesBelow

/-- What stands for a script that failed: the fault and the lines, set as they are. -/
def diagnostic (source : String) (lines : List String) (fault : ScriptFault) : List String :=
  "\\begin\x7bverbatim\x7d" :: s!"Script evaluation failed at {source}: {fault.message}"
    :: lines ++ ["\\end\x7bverbatim\x7d"]

/-- Runs a script and writes its output, or what stands for a script that failed. -/
def runScript (world : World) (source : String) (block : ScriptBlock) : Rendering Unit := do
  match ← world.evaluate block with
  | .ok lines => emitAll (lines.map .script)
  | .error fault =>
    report (.scriptFailed source fault)
    emitAll ((diagnostic source block.lines fault).map .script)

/-- Carries out a directive. -/
def carryOut (world : World) (enter : Entering) (level : Level) (node : Node) :
    Directive → Rendering Verdict
  | .inclusion once names => do
    emit (.echo level.depth (node.value.getD ""))
    let setting ← includeFiles world enter node.source level.depth once names
      ⟨level.styles, level.escaping⟩
    return .included setting.styles setting.escaping
  | .verbatim text => do
    let own := if text.isEmpty then [] else [text]
    emitAll ((own ++ node.children.filterMap (·.value)).map .copied)
    return .done
  | .preamble => return .done
  | .showPreliminary => do
    change ({ · with showPreliminary := true })
    return .done
  | .comment text => do
    level.writeComment text node.children
    return .done
  | .preliminary text => do
    if (← look).showPreliminary then return .proceed (some text)
    else
      level.writeComment s!"PRELIMINARY {text}" node.children
      return .done
  | .escaping on => return .escaping on
  | .format temporary code => do
    let styles ← ofExcept (level.styles.update level.depth code)
    report (.switched node.source styles temporary)
    return .styles styles temporary
  | .script verbose code => do
    runScript world node.source ⟨scriptLines code node, verbose⟩
    return .done

/-- Looks at a node as a directive. A node that is none proceeds with its own value. -/
def dispatch (world : World) (enter : Entering) (level : Level) (node : Node) :
    Rendering Verdict :=
  match node.value.bind Directive.ofValue? with
  | none => pure (.proceed node.value)
  | some directive => do
    report (.recognised node directive)
    carryOut world enter level node directive

/-! ## The forest -/

/-- Renders what lies below a line by the given step, on a level of its own one deeper,
and goes on with what is in force at its end. -/
def Level.descend (level : Level) (step : Level → Rendering Level) : Rendering Level := do
  let below ← within .subtree do
    let below ← step { depth := level.depth + 1, styles := level.styles, escaping := level.escaping }
    below.closeRun
  return { level with styles := below.styles, escaping := below.escaping }

/-- Goes on after a verdict that asks for no line. -/
def Level.follow (level : Level) : Verdict → Rendering Level
  | .proceed _ => pure level
  | .done => pure level
  | .styles styles temporary => level.switchStyles styles temporary
  | .escaping on => pure { level with escaping := on }
  | .included styles escaping => pure { level with styles, escaping }

mutual

/-- Renders a node and what lies below it. A web address that is folded into the line of
the node is no line of its own. -/
def renderNode (world : World) (enter : Entering) (next : Option Node) :
    Node → Level → Rendering Level
  | ⟨value, source, children⟩, level => do
    match ← dispatch world enter level ⟨value, source, children⟩ with
    | .proceed value =>
      let address := Node.leadingAddress? children
      let level ← level.writeLine source address value next
      match children with
      | [] => return level
      | first :: rest =>
        if address.isSome then
          if rest.isEmpty then return level
          else level.descend (renderNodes world enter rest)
        else level.descend (renderNodes world enter (first :: rest))
    | verdict => level.follow verdict

/-- Renders siblings one after the other. The list that is open at their end stays
open. -/
def renderNodes (world : World) (enter : Entering) : List Node → Level → Rendering Level
  | [], level => pure level
  | node :: rest, level => do
    let level ← renderNode world enter rest.head? node level
    renderNodes world enter rest level

end

/-- Renders siblings on a level and closes the list that is open at their end. -/
def renderSiblings (world : World) (enter : Entering) (nodes : List Node) (level : Level) :
    Rendering Level := do
  let level ← renderNodes world enter nodes level
  level.closeRun

/-- Renders what lies below a node, if there is anything. -/
def renderBelow (world : World) (enter : Entering) (nodes : List Node) (level : Level) :
    Rendering Level :=
  if nodes.isEmpty then pure level else level.descend (renderNodes world enter nodes)

/-- Writes the line of a node with the given value, and renders what lies below it. -/
def renderLine (world : World) (enter : Entering) (node : Node) (value : Option String)
    (next : Option Node) (level : Level) : Rendering Level := do
  let level ← level.writeLine node.source node.link? value next
  renderBelow world enter node.subtree level

/-- A node is dispatched, and then its line is rendered if the verdict asks for one. -/
theorem renderNode_eq (world : World) (enter : Entering) (next : Option Node) (node : Node)
    (level : Level) :
    renderNode world enter next node level = (do
      match ← dispatch world enter level node with
      | .proceed value => renderLine world enter node value next level
      | verdict => level.follow verdict) := by
  obtain ⟨value, source, children⟩ := node
  rw [renderNode]
  refine bind_congr fun verdict => ?_
  cases verdict <;> try rfl
  simp only [renderLine]
  refine bind_congr fun level => ?_
  cases children with
  | nil => simp [renderBelow, Node.subtree, Node.link?, Node.leadingAddress?]
  | cons first rest =>
    by_cases h : (Node.leadingAddress? (first :: rest)).isSome <;>
      simp [renderBelow, Node.subtree, Node.link?, h]

/-! ## Included outlines -/

/-- Renders an outline file in the place of a directive. `fuel` is the number of outlines
that may be open within one another. -/
def enterOutline (world : World) : Nat → Entering
  | 0, path, _, _ => fail (.endlessInclusion path)
  | fuel + 1, path, depth, setting => do
    let nodes ← ofExcept ((world.readOutline path).mapError (.includedOutline path))
    let level ← within (.outline path) <| renderSiblings world (enterOutline world fuel) nodes
      { depth, styles := setting.styles, escaping := setting.escaping }
    return ⟨level.styles, level.escaping⟩

namespace World

/-- How the outlines of a world are entered: as deeply as they can nest without a
cycle. -/
def enter (world : World) : Entering :=
  enterOutline world world.nestingBound

/-- Renders a forest at a depth, with what is in force at its beginning, and tells what
is in force at its end. -/
def render (world : World) (nodes : List Node) (depth : Nat) (setting : Setting) :
    Rendering Setting := do
  let level ← renderSiblings world world.enter nodes
    { depth, styles := setting.styles, escaping := setting.escaping }
  return ⟨level.styles, level.escaping⟩

end World

end OutlineTex
