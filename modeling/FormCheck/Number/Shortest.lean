import FormCheck.Number.Decimal

/-!
# Shortest digits that read back

A finite magnitude is a whole number of units, hence also a decimal with
finitely many digits.  Cutting that decimal after one digit, after two digits
and so on gives ever finer grids.  On each grid the two neighbours of the
magnitude are tried: the first grid on which one of them rounds back to the
magnitude gives the shortest digits, and of two such neighbours the nearer one
is taken.  The search ends at the latest with all digits of the decimal.
-/

namespace FormCheck.Number

inductive Tie where
  | upward
  | toEven
  deriving DecidableEq

/-- The magnitude of a rank, scaled by ten to the power `unitExponent`: always a whole number. -/
def exactDigits (rank : Nat) : Nat :=
  units rank * Nat.pow 5 unitExponent

/-- Whether digits, of which the last stands `places` above the end of the exact decimal, round to
the magnitude of a rank. -/
def readsBack (rank digits places : Nat) : Bool :=
  nearestRank (digits * Decimal.tenTo places) (Decimal.tenTo unitExponent) = rank

/-- Of the two neighbours of `exact` on the grid that cuts off `places` digits, the nearer one. -/
def nearerNeighbour (tie : Tie) (exact places : Nat) : Nat :=
  let step := Decimal.tenTo places
  let below := exact / step
  let remainder := exact % step
  if 2 * remainder < step then below
  else if step < 2 * remainder then below + 1
  else match tie with
    | .upward => below + 1
    | .toEven => below + below % 2

/-- The neighbour to be written when `places` digits are cut off: `below` and `above` say which of
the two read back. -/
def neighbourReadingBack? (tie : Tie) (exact places : Nat) (below above : Bool) : Option Nat :=
  match below, above with
  | true, true => some (nearerNeighbour tie exact places)
  | true, false => some (exact / Decimal.tenTo places)
  | false, true => some (exact / Decimal.tenTo places + 1)
  | false, false => none

/-- The digits that are left when `places` digits are cut off, if there are any that read back. -/
def shortened? (tie : Tie) (rank places : Nat) : Option Nat :=
  let exact := exactDigits rank
  let cut := exact / Decimal.tenTo places
  neighbourReadingBack? tie exact places
    (readsBack rank cut places) (readsBack rank (cut + 1) places)

/-- The digits and the number of places cut off, for the coarsest grid that reads back among
those of at most `places` places. -/
def coarsest (tie : Tie) (rank : Nat) : Nat → Nat × Nat
  | 0 => (exactDigits rank, 0)
  | places + 1 =>
    ((shortened? tie rank (places + 1)).map fun digits => (digits, places + 1)).getD
      (coarsest tie rank places)

/-- The shortest decimal that rounds to the magnitude of a rank, without trailing zeros. -/
def shortest (tie : Tie) (negative : Bool) (rank : Nat) : Decimal :=
  let found := coarsest tie rank (Text.digitCount (exactDigits rank) - 1)
  Decimal.withoutTrailingZeros negative found.1 (found.2 - (unitExponent : Int))

end FormCheck.Number
