/-
Decimal digits of a floating-point number: rounded to a given number of significant
digits, and the fewest that read back.

Both come from one step. A positive fraction is placed between two powers of ten, and
then on the grid of so many digits, where its two neighbours are known exactly. For the
rounded digits the nearer one is taken. For the fewest digits the grids are tried from
one digit upwards, and the first on which a neighbour reads back as the number decides;
seventeen digits are always enough.
-/
import OutlineTex.Decimal.Binary

set_option autoImplicit false

namespace OutlineTex.Decimal

/-- Significant digits and the decimal point: the value is `0.d₁d₂… * 10^point`. -/
structure Digits where
  digits : Nat
  point : Int
deriving DecidableEq, Repr

/-- The number of decimal digits of a natural number. -/
def digitCount (n : Nat) : Nat :=
  (Nat.toDigits 10 n).length

/-- The `point` of a positive fraction: `10^(point - 1) ≤ num / den < 10^point`. The
first guess is from the lengths of the two numbers and may be one too low. -/
def decimalPoint (num den : Nat) : Int :=
  let guess : Int := (digitCount num : Int) - (digitCount den : Int)
  let reached :=
    if guess < 0 then den ≤ num * Nat.pow 10 guess.natAbs
    else den * Nat.pow 10 guess.natAbs ≤ num
  if reached then guess + 1 else guess

/-- The fraction with `10^power` taken out. -/
def decimalScaled (num den : Nat) (power : Int) : Nat × Nat :=
  if power < 0 then (num * Nat.pow 10 power.natAbs, den)
  else (num, den * Nat.pow 10 power.natAbs)

/-- Digits in their one form: a carry into a further digit moves the point. -/
def Digits.ofGrid (count q : Nat) (point : Int) : Digits :=
  if q = Nat.pow 10 count then ⟨Nat.pow 10 (count - 1), point + 1⟩ else ⟨q, point⟩

/-- A positive fraction rounded to `count` significant digits, a half to the even
last digit. -/
def rounded (count num den : Nat) : Digits :=
  let point := decimalPoint num den
  let (n, d) := decimalScaled num den (point - count)
  Digits.ofGrid count (roundDiv n d) point

/-- Whether `q` on the grid of `count` digits reads back as the number. -/
def readsBack (significand : Nat) (exponent : Int) (count q : Nat) (point : Int) : Bool :=
  Binary.ofDecimal false q (point - count) == .finite false significand exponent

/-- The neighbour of the number on the grid of `count` digits that reads back as the
number, the nearer one if both do. -/
def onGrid? (significand : Nat) (exponent : Int) (count : Nat) : Option Digits :=
  let (num, den) := fraction significand exponent
  let point := decimalPoint num den
  let (n, d) := decimalScaled num den (point - count)
  let near := roundDiv n d
  let below := n / d
  let far := if near = below then below + 1 else below
  if readsBack significand exponent count near point then some (Digits.ofGrid count near point)
  else if readsBack significand exponent count far point then
    some (Digits.ofGrid count far point)
  else none

/-- The digits of the first grid, from `count` digits upwards, that has a neighbour
reading back, at most `more` grids on; the last one stands for itself. -/
def firstGrid (significand : Nat) (exponent : Int) (count : Nat) : Nat → Digits
  | 0 =>
    let (num, den) := fraction significand exponent
    rounded count num den
  | more + 1 =>
    match onGrid? significand exponent count with
    | some digits => digits
    | none => firstGrid significand exponent (count + 1) more

/-- The fewest significant digits that read back as the number, the nearest of those. -/
def shortest (significand : Nat) (exponent : Int) : Digits :=
  firstGrid significand exponent 1 16

end OutlineTex.Decimal
