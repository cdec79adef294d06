/-
Quoted texts, as messages show a name that a reader has to see exactly.

The quotes are single ones, unless the text holds a single quote and no double one. The
backslash, the quote in use, and the three common controls are written as two
characters; whatever else does not print is written by its code point in hexadecimal,
with the shortest of the three widths that holds it.
-/
import OutlineTex.Text.Printable

set_option autoImplicit false

namespace OutlineTex.Text

/-- A number in lower-case hexadecimal with at least `width` digits. -/
def hexadecimal (width n : Nat) : List Char :=
  let digits := Nat.toDigits 16 n
  List.replicate (width - digits.length) '0' ++ digits

/-- One character of a quoted text. -/
def quotedChar (quote c : Char) : List Char :=
  if c == '\\' || c == quote then ['\\', c]
  else if c == '\n' then ['\\', 'n']
  else if c == '\r' then ['\\', 'r']
  else if c == '\t' then ['\\', 't']
  else if isPrintable c then [c]
  else if c.toNat < 0x100 then '\\' :: 'x' :: hexadecimal 2 c.toNat
  else if c.toNat < 0x10000 then '\\' :: 'u' :: hexadecimal 4 c.toNat
  else '\\' :: 'U' :: hexadecimal 8 c.toNat

/-- The quote that a text is put in. -/
def quoteFor (s : List Char) : Char :=
  if s.contains '\'' && !s.contains '"' then '"' else '\''

/-- The text in quotes. -/
def quoted (s : String) : String :=
  let quote := quoteFor s.toList
  String.ofList (quote :: s.toList.flatMap (quotedChar quote) ++ [quote])

end OutlineTex.Text
