import FormCheck.Text.Scan

/-!
# Parts of date texts

The forms of dates share the way fractions of a second and offsets from
universal time are written.
-/

namespace FormCheck.DateText

/-- The milliseconds of the digits of a fraction: the first three digits, filled up with zeros. -/
def millisOfFraction (digits : List Char) : Nat :=
  Text.numberOfDigits ((digits ++ ['0', '0', '0']).take 3)

/-- A fraction of a second, if there is a point; the point needs a digit after it. -/
def fraction? : List Char → Option (Nat × List Char)
  | '.' :: rest =>
    let digits := Text.digitRun rest
    if digits.isEmpty then none else some (millisOfFraction digits, Text.afterDigits rest)
  | s => some (0, s)

/-- The minutes of an offset, which has to be below one day. -/
def offset? (negative : Bool) (hours minutes : Nat) : Option Int :=
  if hours < 24 ∧ minutes < 60 then
    let offset : Int := hours * 60 + minutes
    some (if negative then -offset else offset)
  else
    none

end FormCheck.DateText
