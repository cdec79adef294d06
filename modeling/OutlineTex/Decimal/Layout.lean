/-
Writing digits: where the point goes, when an exponent is written, and how.

Two layouts are in use. A setting is shown with the digits that read back; a duration
in a message is shown with six significant digits and without the zeros at the end.
They share the rules for the exponent (a sign and at least two digits) and for the
numbers that have no digits, and differ in the one record below.
-/
import OutlineTex.Decimal.Significant

set_option autoImplicit false

namespace OutlineTex.Decimal

/-- How digits are laid out: numbers from `10^-4` up to `10^limit` are written without an
exponent, and a whole number gets `.0` behind it or not. -/
structure Layout where
  limit : Int
  pointZero : Bool

/-- The layout of a setting: positional below `10^16`, and never without a point or an
exponent. -/
def Layout.setting : Layout := ⟨16, true⟩

/-- The layout of a duration: positional below `10^6`, and no point behind a whole
number. -/
def Layout.duration : Layout := ⟨6, false⟩

/-- The digits without the zeros at the end, at least one of them. -/
def trimZeros (digits : List Char) : List Char :=
  match (digits.reverse.dropWhile (· == '0')).reverse with
  | [] => ['0']
  | kept => kept

/-- An exponent with its sign and at least two digits. -/
def exponentText (e : Int) : List Char :=
  let digits := Nat.toDigits 10 e.natAbs
  'e' :: (if e < 0 then '-' else '+') :: (List.replicate (2 - digits.length) '0' ++ digits)

/-- Digits written out, with the point `point` places behind the first. -/
def Layout.write (layout : Layout) (d : Digits) : List Char :=
  let digits := trimZeros (Nat.toDigits 10 d.digits)
  let e := d.point - 1
  if e < -4 || layout.limit ≤ e then
    match digits with
    | [] => exponentText e
    | first :: [] => first :: exponentText e
    | first :: rest => first :: '.' :: rest ++ exponentText e
  else if d.point ≤ 0 then
    '0' :: '.' :: (List.replicate d.point.natAbs '0' ++ digits)
  else
    let whole := d.point.natAbs
    let padded := digits ++ List.replicate (whole - digits.length) '0'
    match padded.drop whole with
    | [] => padded.take whole ++ (if layout.pointZero then ['.', '0'] else [])
    | places => padded.take whole ++ '.' :: places

/-- A number written by a layout, its digits chosen by `choose`. -/
def Binary.write (layout : Layout) (choose : Nat → Int → Digits) : Binary → String
  | .undefined => "nan"
  | .infinite negative => if negative then "-inf" else "inf"
  | .finite negative significand exponent =>
    let sign := if negative then ['-'] else []
    let body :=
      if significand = 0 then layout.write ⟨0, 1⟩
      else layout.write (choose significand exponent)
    String.ofList (sign ++ body)

/-- The text of a setting: the fewest digits that read back. -/
def Binary.settingText (x : Binary) : String :=
  x.write .setting shortest

/-- The text of a duration: six significant digits. -/
def Binary.durationText (x : Binary) : String :=
  x.write .duration fun significand exponent =>
    let (num, den) := fraction significand exponent
    rounded 6 num den

end OutlineTex.Decimal
