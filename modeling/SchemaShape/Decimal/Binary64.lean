/-! # Finite binary64 numbers

A finite double is a sign, a significand and a power of two; no machine float is involved, so
every operation is exact arithmetic on naturals.

* `Binary64.round`: the double nearest to a positive quotient, ties to the even significand.
* `Binary64.ofScientific`: the double nearest to `digits * 10 ^ exponent`, `none` past the largest.
* `Binary64.ofInt`: the double nearest to an integer of at most 64 bits.
-/

namespace SchemaShape
set_option autoImplicit false

/-- The number `(-1) ^ negative * significand * 2 ^ exponent`. Zero is `0 * 2 ^ -1074`, with a sign;
any other number has a significand below `2 ^ 53`, and of at least `2 ^ 52` unless its exponent is
the least one, `-1074`. -/
structure Binary64 where
  negative : Bool
  significand : Nat
  exponent : Int
  deriving DecidableEq, Repr, Inhabited

namespace Binary64

/-! ## Rounding -/

/-- The integer nearest to `numerator / denominator`; a half goes to the even neighbour. -/
def nearestEven (numerator denominator : Nat) : Nat :=
  let quotient := numerator / denominator
  let twice := 2 * (numerator % denominator)
  if twice < denominator then quotient
  else if denominator < twice then quotient + 1
  else quotient + quotient % 2

/-- The power of two that puts `numerator / denominator` on the grid of doubles around it. -/
def gridExponent (numerator denominator : Nat) : Int :=
  let magnitude : Int := (numerator.log2 : Int) - (denominator.log2 : Int)
  let belowPower :=
    if 0 ≤ magnitude then numerator < denominator * Nat.pow 2 magnitude.toNat
    else numerator * Nat.pow 2 (-magnitude).toNat < denominator
  max (-1074) (if belowPower then magnitude - 53 else magnitude - 52)

def zero (negative : Bool) : Binary64 := ⟨negative, 0, -1074⟩

/-- The double nearest to `numerator / denominator`, or `none` if that is past the largest. -/
def round (negative : Bool) (numerator denominator : Nat) : Option Binary64 :=
  if numerator = 0 then some (zero negative)
  else
    let exponent := gridExponent numerator denominator
    let significand :=
      if 0 ≤ exponent then nearestEven numerator (denominator * Nat.pow 2 exponent.toNat)
      else nearestEven (numerator * Nat.pow 2 (-exponent).toNat) denominator
    let (significand, exponent) :=
      if significand = Nat.pow 2 53 then (Nat.pow 2 52, exponent + 1) else (significand, exponent)
    if 971 < exponent then none
    else if significand = 0 then some (zero negative)
    else some ⟨negative, significand, exponent⟩

/-! ## Reading -/

/-- The double nearest to `digits * 10 ^ exponent`. Numbers of at least `10 ^ 400` are too large and
those below `10 ^ -400` are zero, so that no power of ten beyond these is computed. -/
def ofScientific (negative : Bool) (digits : Nat) (exponent : Int) : Option Binary64 :=
  let places : Int := (Nat.toDigits 10 digits).length
  if digits = 0 then some (zero negative)
  else if 400 < exponent + places then none
  else if exponent + places < -400 then some (zero negative)
  else if 0 ≤ exponent then round negative (digits * Nat.pow 10 exponent.toNat) 1
  else round negative digits (Nat.pow 10 (-exponent).toNat)

/-- The double nearest to an integer; integers past the largest double do not occur. -/
def ofInt (value : Int) : Binary64 :=
  (round (decide (value < 0)) value.natAbs 1).getD (zero false)

/-! ## Comparing -/

/-- Whether two doubles are the same number; the sign of zero makes no difference. -/
def sameNumber (a b : Binary64) : Bool :=
  a = b || (a.significand = 0 && b.significand = 0)

end Binary64

end SchemaShape
