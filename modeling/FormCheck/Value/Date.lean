import FormCheck.DateText.Form
import FormCheck.Value

/-!
# Values as dates

A text is a date when it is written as one.  A finite number is a date as well:
it counts the milliseconds since the start of 1970, its fraction is cut off,
and it is limited to integers of 64 bits.
-/

namespace FormCheck

/-- An integer limited to 64 bits with a sign. -/
def saturate (n : Int) : Int :=
  max (-0x8000000000000000) (min 0x7fffffffffffffff n)

def Value.epochMillis? : Value → Option Int
  | .number n => n.truncate?.map saturate
  | .text s => DateText.epochMillis? s
  | .bool _ => none

end FormCheck
