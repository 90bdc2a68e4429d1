/-!
# Numbers

A number is a binary floating-point number of 64 bits, kept as exact data: not
a number, one of the two infinities, or a sign with one of the finite
magnitudes.  The finite magnitudes are counted upward from zero, and the place
in this count is the rank of a magnitude.  All of them are whole multiples of
the least positive one, which is two to the power -1074 and serves as the unit.

The ranks fall into blocks of two to the power 52.  In the first two blocks the
rank of a magnitude is also its number of units; from there on each block
doubles the distance between neighbours.
-/

namespace FormCheck

namespace Number

def twoTo (n : Nat) : Nat :=
  Nat.pow 2 n

/-- The number of ranks in a block, two to the power 52. -/
abbrev blockSize : Nat := 0x10000000000000

/-- The weight of the sign in an encoding, two to the power 63. -/
abbrev signWeight : Nat := 0x8000000000000000

/-- How many finite magnitudes there are; also the rank at which infinity stands. -/
abbrev magnitudeCount : Nat := 2047 * blockSize

/-- The power of two of which the unit is the inverse. -/
abbrev unitExponent : Nat := 1074

/-- The number of units of the magnitude of a rank. -/
def units (rank : Nat) : Nat :=
  if rank < blockSize then rank
  else (blockSize + rank % blockSize) * twoTo (rank / blockSize - 1)

end Number

inductive Number where
  | nan
  | infinite (negative : Bool)
  | finite (negative : Bool) (magnitude : Fin Number.magnitudeCount)
  deriving DecidableEq

namespace Number

instance : Inhabited Number := ⟨.nan⟩

def ofRank (negative : Bool) (rank : Nat) : Number :=
  if hrank : rank < magnitudeCount then .finite negative ⟨rank, hrank⟩ else .infinite negative

def signed (negative : Bool) (n : Nat) : Int :=
  if negative then -(n : Int) else n

theorem natAbs_signed (negative : Bool) (n : Nat) : (signed negative n).natAbs = n := by
  cases negative <;> simp [signed]

theorem signed_natAbs (n : Int) : signed (decide (n < 0)) n.natAbs = n := by
  unfold signed
  by_cases hsign : n < 0
  · rw [if_pos (decide_eq_true hsign)]
    omega
  · rw [if_neg (by simp [hsign])]
    omega

/-- The place of a number on the line of units, where infinity stands one rank above the
greatest magnitude.  Both zeros stand at the same place, and `nan` stands nowhere. -/
def position? : Number → Option Int
  | .nan => none
  | .infinite negative => some (signed negative (units magnitudeCount))
  | .finite negative magnitude => some (signed negative (units magnitude))

/-- Whether a number is at most another; never so when one of them is `nan`. -/
def le (a b : Number) : Bool :=
  match a.position?, b.position? with
  | some x, some y => x ≤ y
  | _, _ => false

/-- Whether two numbers stand at the same place; `nan` differs from itself. -/
def equal (a b : Number) : Bool :=
  match a.position?, b.position? with
  | some x, some y => x = y
  | _, _ => false

/-- The integer of a finite number with its fraction cut off. -/
def truncate? : Number → Option Int
  | .finite negative magnitude => some (signed negative (units magnitude / twoTo unitExponent))
  | _ => none

def isEven : Number → Bool
  | .finite _ magnitude => units magnitude % twoTo (unitExponent + 1) = 0
  | _ => false

/-- The interchange encoding: the sign in the highest of 64 bits, the rank in the others. -/
def encoding : Number → Nat
  | .nan => magnitudeCount + blockSize / 2
  | .infinite negative => negative.toNat * signWeight + magnitudeCount
  | .finite negative magnitude => negative.toNat * signWeight + magnitude

def ofEncoding (bits : Nat) : Number :=
  let negative := bits / signWeight % 2 == 1
  let rank := bits % signWeight
  if rank ≤ magnitudeCount then ofRank negative rank else .nan

end Number

end FormCheck
