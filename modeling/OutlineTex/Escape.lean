/-
Escaping: a text written so that the typesetter sets it as it stands.

Math is left alone. Outside it, double quotes become opening and closing quotes in
turn, the three signs that only exist in math are put into it, and the underscore and
the percent sign get a backslash. The turn of the quotes starts anew with every text,
while the math state goes on from one text to the next.
-/
import OutlineTex.Math

set_option autoImplicit false

namespace OutlineTex.Escape

/-- The glyphs of an opening quote. -/
def openingQuote : List Char := "``".toList

/-- The glyphs of a closing quote. -/
def closingQuote : List Char := "''".toList

/-- A sign that exists in math only. -/
def isMathSign (c : Char) : Bool :=
  c == '|' || c == '<' || c == '>'

/-- A sign that a backslash makes harmless. -/
def takesBackslash (c : Char) : Bool :=
  c == '_' || c == '%'

/-- One character outside math, other than a double quote. -/
def sign (c : Char) : List Char :=
  if isMathSign c then ['$', c, '$'] else if takesBackslash c then ['\\', c] else [c]

/-- A text escaped from a math state on; `quoted` tells whether a quote is open. -/
def textFrom (state quoted : Bool) : List Char → List Char
  | [] => []
  | c :: rest =>
    let state := Math.step state c rest
    if state then c :: textFrom state quoted rest
    else if c == '"' then
      (if quoted then closingQuote else openingQuote) ++ textFrom state (!quoted) rest
    else sign c ++ textFrom state quoted rest

/-- A text escaped from a math state on. -/
def text (state : Bool) (s : List Char) : List Char :=
  textFrom state false s

end OutlineTex.Escape
