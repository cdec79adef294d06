/-
Reading a decimal numeral.

A numeral is a sign, digits with at most one point, and an exponent; or one of the
words for infinity and for what is no number. Blanks around it do not count, digits of
any script do, and a single underscore may stand between two digits. A text that is all
ASCII knows only the ASCII blanks, so the information separators are not blanks there;
with other characters in it, every blank outside ASCII counts as a space.
-/
import OutlineTex.Decimal.Binary
import OutlineTex.Text.Blank
import OutlineTex.Text.Digit

set_option autoImplicit false

namespace OutlineTex.Decimal

open OutlineTex.Text

/-! ## Preparing the text -/

/-- Characters outside ASCII as the reader sees them: a blank is a space, a digit of any
script is the plain digit, and anything else stays and is no part of a numeral. -/
def plainChar (c : Char) : Char :=
  if c.toNat < 0x7F then c
  else if isBlank c then ' '
  else match digitValue? c with
    | some d => Nat.digitChar d
    | none => c

/-- The text without the ASCII blanks on either side. -/
def trimAscii (s : List Char) : List Char :=
  ((s.dropWhile isAsciiBlank).reverse.dropWhile isAsciiBlank).reverse

/-- The text without its underscores, if each stands between two digits. The first
argument tells whether a digit stands right before. -/
def dropUnderscores? : Bool → List Char → Option (List Char)
  | _, [] => some []
  | afterDigit, '_' :: c :: rest =>
    if afterDigit && c.isDigit then (dropUnderscores? true rest).map (c :: ·) else none
  | _, '_' :: [] => none
  | _, c :: rest => (dropUnderscores? c.isDigit rest).map (c :: ·)

/-! ## The grammar -/

/-- The sign at the head of a text, and the rest. -/
def signed : List Char → Bool × List Char
  | '-' :: rest => (true, rest)
  | '+' :: rest => (false, rest)
  | rest => (false, rest)

/-- The value of plain digits, most significant first. -/
def digitsValue (digits : List Char) : Nat :=
  digits.foldl (fun n c => n * 10 + (c.toNat - '0'.toNat)) 0

/-- An exponent, which is zero where none is written. -/
def exponent? : List Char → Option Int
  | [] => some 0
  | c :: rest =>
    if c == 'e' || c == 'E' then
      let (negative, digits) := signed rest
      if !digits.isEmpty && digits.all Char.isDigit then
        let n : Int := digitsValue digits
        some (if negative then -n else n)
      else none
    else none

/-- An unsigned numeral: digits, a point, digits, an exponent, with at least one digit
before or behind the point. -/
def unsigned? (negative : Bool) (s : List Char) : Option Binary :=
  let whole := s.takeWhile Char.isDigit
  let rest := s.dropWhile Char.isDigit
  let (places, rest) := match rest with
    | '.' :: rest => (rest.takeWhile Char.isDigit, rest.dropWhile Char.isDigit)
    | rest => ([], rest)
  if whole.isEmpty && places.isEmpty then none
  else (exponent? rest).map fun e =>
    Binary.ofDecimal negative (digitsValue (whole ++ places)) (e - places.length)

/-- The words for infinity and for what is no number, in any case. -/
def word? (negative : Bool) (s : List Char) : Option Binary :=
  let name := String.ofList (s.map Char.toLower)
  if name == "inf" || name == "infinity" then some (.infinite negative)
  else if name == "nan" then some .undefined
  else none

/-- The number that a text spells. -/
def Binary.ofText? (s : String) : Option Binary :=
  (dropUnderscores? false (trimAscii (s.toList.map plainChar))).bind fun s =>
    let (negative, body) := signed s
    (word? negative body).orElse fun _ => unsigned? negative body

end OutlineTex.Decimal
