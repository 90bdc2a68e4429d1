import FormCheck.Date.Moment
import FormCheck.DateText.Parts

/-!
# Internet date-times

The form of the Internet profile of dates: all numbers have a fixed width, as
in `2019-01-01T10:30:00.250+01:00`, and an offset from universal time is
required.  The `T` may be in lower case or a space, the `Z` may be in lower
case, and the minus sign of an offset may be the typographic one.
-/

namespace FormCheck.DateText

/-- An offset: `Z`, or a sign with hours and minutes. -/
def internetOffset? : List Char → Option (Int × List Char)
  | [] => none
  | c :: rest =>
    if c = 'Z' ∨ c = 'z' then some (0, rest)
    else if c = '+' ∨ c = '-' ∨ c = '\u2212' then do
      let (hours, s) ← Text.number? 2 2 rest
      let s ← Text.expect? ':' s
      let (minutes, s) ← Text.number? 2 2 s
      let offset ← offset? (c ≠ '+') hours minutes
      return (offset, s)
    else none

def internet? (s : List Char) : Option Int := do
  let (year, s) ← Text.number? 4 4 s
  let s ← Text.expect? '-' s
  let (month, s) ← Text.number? 2 2 s
  let s ← Text.expect? '-' s
  let (day, s) ← Text.number? 2 2 s
  let s ← Text.expectAny? ['T', 't', ' '] s
  let (hour, s) ← Text.number? 2 2 s
  let s ← Text.expect? ':' s
  let (minute, s) ← Text.number? 2 2 s
  let s ← Text.expect? ':' s
  let (second, s) ← Text.number? 2 2 s
  let (millis, s) ← fraction? s
  let (offset, s) ← internetOffset? s
  guard s.isEmpty
  epochMillisOfParts? year month day hour minute second millis offset

end FormCheck.DateText
