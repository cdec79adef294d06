/-
Binary floating point with 53 bits, and the rounding of an exact fraction to it.

A finite number is a sign, a whole significand and an exponent of two. The significand
stays below 2^53 and the exponent at or above -1074, and the exponent is the least one
that this allows, so a number has one form. Everything is exact arithmetic on natural
numbers: a fraction is placed on the grid of its own size and the quotient rounded to
the nearest point, a half going to the even one.
-/

set_option autoImplicit false

namespace OutlineTex.Decimal

/-! ## The numbers -/

/-- A floating-point number: a finite one of value `±significand * 2^exponent`, an
infinity, or no number. -/
inductive Binary
  | finite (negative : Bool) (significand : Nat) (exponent : Int)
  | infinite (negative : Bool)
  | undefined
deriving DecidableEq, Repr, Inhabited

/-- The exponent of the finest grid. -/
def leastExponent : Int := -1074

/-- The exponent of the coarsest grid. -/
def greatestExponent : Int := 971

/-- Zero of either sign. -/
def Binary.zero (negative : Bool) : Binary :=
  .finite negative 0 leastExponent

/-! ## Rounding -/

/-- The quotient rounded to the nearest whole number, a half to the even one. -/
def roundDiv (num den : Nat) : Nat :=
  let q := num / den
  let rest := 2 * (num % den)
  if rest < den || (rest == den && q % 2 == 0) then q else q + 1

/-- The fraction `num / den` with `2^exponent` taken out, as a fraction. -/
def scaled (num den : Nat) (exponent : Int) : Nat × Nat :=
  if exponent < 0 then (num * Nat.pow 2 exponent.natAbs, den)
  else (num, den * Nat.pow 2 exponent.natAbs)

/-- The exponent of the grid on which the fraction has a quotient of 53 bits, or of the
finest grid if that is coarser. The first guess is from the lengths of the two numbers
and may be one too low. -/
def gridExponent (num den : Nat) : Int :=
  let guess : Int := (num.log2 : Int) - (den.log2 : Int) - 53
  let (n, d) := scaled num den guess
  max (if n / d < Nat.pow 2 53 then guess else guess + 1) leastExponent

/-- The number nearest to the fraction `±num / den`, a half going to the even
significand. Beyond the greatest number stands the infinity. -/
def Binary.ofFraction (negative : Bool) (num den : Nat) : Binary :=
  if num = 0 then zero negative
  else
    let exponent := gridExponent num den
    let (n, d) := scaled num den exponent
    let q := roundDiv n d
    let (significand, exponent) :=
      if q = Nat.pow 2 53 then (Nat.pow 2 52, exponent + 1) else (q, exponent)
    if exponent > greatestExponent then .infinite negative
    else .finite negative significand exponent

/-- The number nearest to `±digits * 10^power`. Far outside the range of the numbers the
answer is known without computing the power. -/
def Binary.ofDecimal (negative : Bool) (digits : Nat) (power : Int) : Binary :=
  if digits = 0 then zero negative
  else
    let size := power + (Nat.toDigits 10 digits).length
    if size > 310 then .infinite negative
    else if size < -330 then zero negative
    else if power < 0 then ofFraction negative digits (Nat.pow 10 power.natAbs)
    else ofFraction negative (digits * Nat.pow 10 power.natAbs) 1

/-- The size of a finite number as a fraction. -/
def fraction (significand : Nat) (exponent : Int) : Nat × Nat :=
  if exponent < 0 then (significand, Nat.pow 2 exponent.natAbs)
  else (significand * Nat.pow 2 exponent.natAbs, 1)

end OutlineTex.Decimal
