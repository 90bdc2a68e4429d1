import FormCheck.Number.Decimal

/-!
# Scaling by powers of ten

A decimal can be evaluated in steps.  Its digits are rounded to a magnitude, and
this magnitude is multiplied or divided by the one nearest to a power of ten and
rounded again.  The 308th power of ten is the last one in the finite range: a
division by a higher power is made by several divisions, and a multiplication by
a higher power leads out of the range, unless the digits are zero.

Every step rounds, so the result can lie beside the number nearest to the decimal.
-/

namespace FormCheck

namespace Number

def productRank (a b : Nat) : Nat :=
  nearestRank (units a * units b) (twoTo (2 * unitExponent))

def quotientRank (a b : Nat) : Nat :=
  nearestRank (units a) (units b)

abbrev lastTenExponent : Nat := 308

def tenRank (exponent : Nat) : Nat :=
  nearestRank (Decimal.tenTo exponent) 1

/-- The rank of a magnitude multiplied by a power of ten. -/
def raisedRank (rank exponent : Nat) : Nat :=
  if exponent ≤ lastTenExponent then productRank rank (tenRank exponent)
  else if rank = 0 then 0
  else magnitudeCount

/-- The rank of a magnitude divided by a power of ten. -/
def loweredRank (rank exponent : Nat) : Nat :=
  if exponent ≤ lastTenExponent then quotientRank rank (tenRank exponent)
  else if rank = 0 then 0
  else loweredRank (quotientRank rank (tenRank lastTenExponent)) (exponent - lastTenExponent)
  termination_by exponent
  decreasing_by
    simp only [lastTenExponent] at *
    omega

end Number

namespace Decimal

def scaledRank (decimal : Decimal) : Nat :=
  let rank := Number.nearestRank decimal.digits 1
  if 0 ≤ decimal.exponent then Number.raisedRank rank decimal.exponent.toNat
  else Number.loweredRank rank (-decimal.exponent).toNat

def scaled (decimal : Decimal) : Number :=
  Number.ofRank decimal.negative decimal.scaledRank

end Decimal

end FormCheck
