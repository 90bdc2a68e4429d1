import FormCheck.Number.Basic

/-!
# Rounding to the nearest number

A fraction is rounded to the finite magnitude that is nearest to it; of two
equally near ones the magnitude of even rank is taken.  A fraction that rounds
above the greatest magnitude rounds to infinity.
-/

namespace FormCheck.Number

/-- The whole number nearest to a quotient; a half goes to the even neighbour. -/
def roundDiv (num den : Nat) : Nat :=
  let quotient := num / den
  let remainder := num % den
  if 2 * remainder < den then quotient
  else if den < 2 * remainder then quotient + 1
  else quotient + quotient % 2

/-- The rank of the magnitude nearest to the fraction `num / den`.  The fraction is measured in
units; its block is chosen so that the rounded significand has at most 53 binary digits. -/
def nearestRank (num den : Nat) : Nat :=
  let scaled := num * twoTo unitExponent
  let block := (scaled / den).log2 - 52
  block * blockSize + roundDiv scaled (den * twoTo block)

def ofFraction (negative : Bool) (num den : Nat) : Number :=
  ofRank negative (nearestRank num den)

def ofInt (n : Int) : Number :=
  ofFraction (decide (n < 0)) n.natAbs 1

end FormCheck.Number
