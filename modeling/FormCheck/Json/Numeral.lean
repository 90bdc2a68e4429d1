import FormCheck.Number.Scaling

/-!
# The value of a number literal

The digits of a literal are taken into a significand of 64 binary digits.  From
the first digit on that does not fit, the digits before the point only count as
places, and those after the point are left out.  The decimal that results is
evaluated in steps, so a literal of a JSON document does not always denote the
number nearest to it.
-/

namespace FormCheck.Json

abbrev greatestSignificand : Nat := 0xFFFFFFFFFFFFFFFF

/-- Takes digits into a significand while they fit, and gives the digits that were not taken. -/
def takeDigits (significand : Nat) : List Char → Nat × List Char
  | [] => (significand, [])
  | c :: rest =>
    let next := 10 * significand + (c.toNat - '0'.toNat)
    if next ≤ greatestSignificand then takeDigits next rest else (significand, c :: rest)

def decimalOfParts (negative : Bool) (whole fraction : List Char) (exponent : Int) : Decimal :=
  let (significand, places) := takeDigits 0 whole
  let (digits, leftOut) := takeDigits significand fraction
  { negative, digits, exponent := exponent + places.length - fraction.length + leftOut.length }

def numberOfParts (negative : Bool) (whole fraction : List Char) (exponent : Int) : Number :=
  (decimalOfParts negative whole fraction exponent).scaled

end FormCheck.Json
