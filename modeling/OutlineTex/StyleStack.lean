/-
Stacks of styles, one for each depth.

The style of a depth is the one at that place of the stack, and below the end of the
stack the last style goes on. A switch at a depth keeps what is above and puts a new
stack there; if the stack does not reach that far, its last style is written out first,
so that the depths above the switch keep the style they had.

Depths may also be given as whole numbers, and then a negative one counts from the end
of the stack. For natural numbers both forms agree.
-/
import OutlineTex.Style
import OutlineTex.Failure

set_option autoImplicit false

namespace OutlineTex

/-- The styles of the depths, from depth zero down. -/
structure StyleStack where
  styles : List Style := []
deriving DecidableEq, Repr, Inhabited

namespace StyleStack

/-! ## Codes -/

/-- The styles with the given ids, or the first id that is none. -/
def ofIds : List String → Except Failure (List Style)
  | [] => .ok []
  | id :: rest =>
    match Style.find? id with
    | none => .error (.unknownStyle id)
    | some style => (ofIds rest).map (style :: ·)

/-- The stack that a code spells. -/
def ofCode (code : String) : Except Failure StyleStack :=
  (ofIds (Style.ids code)).map (⟨·⟩)

/-- The ids of the stack, one after the other. -/
def code (stack : StyleStack) : String :=
  String.join (stack.styles.map (·.id))

/-! ## The style of a depth -/

/-- The style at a depth; the last one below the end of the stack. -/
def styleAt? (stack : StyleStack) (depth : Nat) : Option Style :=
  stack.styles[min depth (stack.styles.length - 1)]?

/-- The style at a depth, where a style is needed. -/
def styleAt (stack : StyleStack) (depth : Nat) : Except Failure Style :=
  match stack.styleAt? depth with
  | some style => .ok style
  | none => .error .noStyle

/-! ## Switching -/

/-- The first `depth` styles, the last one repeated if there are fewer. An empty stack
has none to repeat. -/
def above (stack : StyleStack) (depth : Nat) : List Style :=
  match stack.styles.getLast? with
  | none => []
  | some last =>
    stack.styles.take depth ++ List.replicate (depth - stack.styles.length) last

/-- The stack with another one from `depth` down. -/
def overlay (stack : StyleStack) (depth : Nat) (below : StyleStack) : StyleStack :=
  ⟨stack.above depth ++ below.styles⟩

/-- The stack with the styles of a code from `depth` down. -/
def update (stack : StyleStack) (depth : Nat) (code : String) : Except Failure StyleStack :=
  (ofCode code).map (stack.overlay depth)

/-! ## Depths from the end -/

/-- The first failure of looking up a depth that may be negative: there may be no style
at all, or none so far from the end. -/
inductive LookupFault
  | failure (cause : Failure)
  | beyondStart
deriving DecidableEq, Repr

/-- The style at a depth; a negative one counts from the end of the stack. -/
def styleFrom (stack : StyleStack) (depth : Int) : Except LookupFault Style :=
  match depth with
  | .ofNat depth => (stack.styleAt depth).mapError .failure
  | .negSucc back =>
    if stack.styles.isEmpty then .error (.failure .noStyle)
    else match stack.styles.reverse[back]? with
      | some style => .ok style
      | none => .error .beyondStart

/-- The stack with the styles of a code from a depth down; a negative depth counts from
the end of the stack. -/
def updateFrom (stack : StyleStack) (depth : Int) (code : String) :
    Except Failure StyleStack :=
  match depth with
  | .ofNat depth => stack.update depth code
  | .negSucc back =>
    (ofCode code).map fun below =>
      ⟨stack.styles.take (stack.styles.length - (back + 1)) ++ below.styles⟩

/-- A depth that is no negative number is a depth. -/
theorem styleFrom_natCast (stack : StyleStack) (depth : Nat) :
    stack.styleFrom depth = (stack.styleAt depth).mapError .failure := rfl

/-- A switch at a depth that is no negative number is a switch at that depth. -/
theorem updateFrom_natCast (stack : StyleStack) (depth : Nat) (code : String) :
    stack.updateFrom depth code = stack.update depth code := rfl

end StyleStack

end OutlineTex
