/-
Levels: the state that lives as long as one list of siblings is rendered.

A level knows its depth, the styles and the escaping in force, the list that is open,
whether math is open at the end of the last line, and what a temporary switch of styles
has to be undone to. The operations here are those that need no look at what lies below:
opening and closing a list, switching styles and switching back, and writing one line.

A list is open while the lines of a level have the same style and that style has an
environment. It is closed by a line of another style, by any switch of styles, and at
the end of the level. A temporary switch is undone by the second line that continues no
other; until then the first one and its continuations keep the temporary style.
-/
import OutlineTex.Rendering

set_option autoImplicit false

namespace OutlineTex

/-- The state of a level. `openStyle` is the style of the list that is open, `pending`
are the styles that a temporary switch will give way to, and `temporaryUsed` tells
whether a line has been written since that switch. -/
structure Level where
  depth : Nat
  styles : StyleStack
  escaping : Bool := true
  openStyle : Option Style := none
  inMath : Bool := false
  pending : Option StyleStack := none
  temporaryUsed : Bool := false
deriving DecidableEq, Repr, Inhabited

namespace Level

open Rendering

/-! ## Lists -/

/-- Closes the list that is open. -/
def closeRun (level : Level) : Rendering Level :=
  match level.openStyle with
  | none => pure level
  | some style => do
    match style.environment with
    | some environment => emit (.closing level.depth style environment)
    | none => pure ()
    return { level with openStyle := none }

/-- Makes the open list the one that a line of the given style belongs to: another one
is closed, and one is opened if the style has an environment. -/
def settleRun (level : Level) (style : Style) (source : String) : Rendering Level := do
  let level ← if level.openStyle.any (· != style) then level.closeRun else pure level
  match style.environment, level.openStyle with
  | some environment, none =>
    emit (.opening level.depth style environment source)
    return { level with openStyle := some style }
  | _, _ => return level

/-! ## Switching styles -/

/-- Switches the styles. The first of several temporary switches decides what is
restored. -/
def switchStyles (level : Level) (styles : StyleStack) (temporary : Bool) :
    Rendering Level := do
  let level ← level.closeRun
  let level :=
    if temporary && level.pending.isNone then
      { level with pending := some level.styles, temporaryUsed := false }
    else level
  return { level with styles }

/-- Undoes a temporary switch, unless the line at hand is the first one after it. -/
def restoreTemporary (level : Level) : Rendering Level :=
  match level.pending with
  | none => pure level
  | some styles =>
    if !level.temporaryUsed then pure { level with temporaryUsed := true }
    else do
      let level ← level.closeRun
      report (.restored styles)
      return { level with styles, pending := none, temporaryUsed := false }

/-! ## Lines -/

/-- The text of a value: the space that marks a continuation is dropped. -/
def textOf (value : String) : List Char :=
  if Node.isContinuation (some value) then value.toList.tail else value.toList

/-- Writes the line of a node, given the value that it is to have, the address that is
folded into it and the sibling after it. -/
def writeLine (level : Level) (source : String) (address : Option String)
    (value : Option String) (next : Option Node) : Rendering Level :=
  match value with
  | none => fail (.skippedLevel source level.depth)
  | some value => do
    let continues := Node.isContinuation (some value)
    let text := textOf value
    let level ← if continues then pure level else level.restoreTemporary
    let style ← ofExcept (level.styles.styleAt level.depth)
    let level ← level.settleRun style source
    emit <| .content {
      depth := level.depth, style, continues
      continued := Node.isContinuation (next.bind (·.value))
      address, text
      escapedFrom := if level.escaping then some level.inMath else none
      source }
    if level.escaping then return { level with inMath := Math.after level.inMath text }
    else return level

/-! ## Comments -/

mutual

/-- Writes a node and what is below it as comments, indented by their depth. A
placeholder has no line, but what is below it keeps its depth. -/
def annotate (depth : Nat) : Node → Rendering Unit
  | ⟨value, _, children⟩ => do
    match value with
    | some value => emit (.comment depth s!"% {value}")
    | none => pure ()
    annotateAll (depth + 1) children

/-- Writes nodes of one depth, and what is below them, as comments. -/
def annotateAll (depth : Nat) : List Node → Rendering Unit
  | [] => pure ()
  | node :: rest => do
    annotate depth node
    annotateAll depth rest

end

/-- Writes a comment at the level's depth, without blanks at its end, and the nodes below
it as further comments. -/
def writeComment (level : Level) (text : String) (children : List Node) : Rendering Unit := do
  emit (.comment level.depth (String.ofList (Text.trimEnd s!"% {text}".toList)))
  annotateAll (level.depth + 1) children

end Level

end OutlineTex
