/-
Math mode: which characters of a text lie in it.

A dollar toggles math mode, for itself and what follows. The two brackets with a
backslash before them switch it on and off, whatever the state was, and the switch
counts from the backslash on. A backslash is looked at together with the one character
behind it, so the state before a character is all that a scan has to remember.
-/

set_option autoImplicit false

namespace OutlineTex.Math

/-- The state at a character: the state before it, changed by the character itself,
seen with what follows it. -/
def step (state : Bool) (c : Char) (rest : List Char) : Bool :=
  if c == '\\' && rest.head? == some '[' then true
  else if c == '\\' && rest.head? == some ']' then false
  else if c == '$' then !state
  else state

/-- The state at every character of a text, from the state before the first. -/
def trace (state : Bool) : List Char → List Bool
  | [] => []
  | c :: rest =>
    let state := step state c rest
    state :: trace state rest

/-- The state behind a text. -/
def after (state : Bool) : List Char → Bool
  | [] => state
  | c :: rest => after (step state c rest) rest

/-- The state behind a text is the one at its last character. -/
theorem after_eq_getLast (state : Bool) (s : List Char) :
    after state s = ((trace state s).getLast?.getD state) := by
  induction s generalizing state with
  | nil => rfl
  | cons c rest ih =>
    rw [after, ih, trace]
    cases rest with
    | nil => rfl
    | cons d rest => simp [trace, List.getLast?_cons]

end OutlineTex.Math
