import FormCheck.Number.Rounding
import FormCheck.Text.Digits

/-!
# Decimals

A decimal is a whole number of digits, scaled by a power of ten, with a sign.
Every decimal has a nearest number.  Exponents can be far too large to compute
the power of ten, so a decimal with more than 310 digits before its point is
taken as infinite, and one with more than 330 zeros after its point as zero,
before any power is computed; neither is in the range of the finite non-zero
magnitudes.
-/

namespace FormCheck

/-- The value `digits * 10 ^ exponent`, with a sign. -/
structure Decimal where
  negative : Bool
  digits : Nat
  exponent : Int
  deriving DecidableEq

namespace Decimal

def tenTo (n : Nat) : Nat :=
  Nat.pow 10 n

/-- The rank of the magnitude nearest to a decimal. -/
def rank (decimal : Decimal) : Nat :=
  let length : Int := Text.digitCount decimal.digits
  if decimal.digits = 0 ∨ length + decimal.exponent < -330 then 0
  else if 310 < length + decimal.exponent then Number.magnitudeCount
  else if 0 ≤ decimal.exponent then
    Number.nearestRank (decimal.digits * tenTo decimal.exponent.toNat) 1
  else
    Number.nearestRank decimal.digits (tenTo (-decimal.exponent).toNat)

def toNumber (decimal : Decimal) : Number :=
  Number.ofRank decimal.negative decimal.rank

def ofParts (negative : Bool) (whole fraction : List Char) (exponent : Int) : Decimal where
  negative := negative
  digits := Text.numberOfDigits (whole ++ fraction)
  exponent := exponent - fraction.length

/-- The same value with the trailing zeros of the digits moved to the exponent. -/
def withoutTrailingZeros (negative : Bool) (digits : Nat) (exponent : Int) : Decimal :=
  if digits ≠ 0 ∧ digits % 10 = 0 then
    withoutTrailingZeros negative (digits / 10) (exponent + 1)
  else
    ⟨negative, digits, exponent⟩
  termination_by digits
  decreasing_by omega

end Decimal

end FormCheck
