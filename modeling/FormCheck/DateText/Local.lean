import FormCheck.Date.Moment
import FormCheck.DateText.Parts

/-!
# Dates and date-times without an offset

The form `2019-01-01`, alone or with a time as in `2019-01-01T10:30:00.250`, is
taken as universal time.  Numbers may be preceded by blanks and need not be
filled up with zeros; a year with a sign may have any number of digits.
-/

namespace FormCheck.DateText

/-- A number of one or two digits, after blanks. -/
def loose? (s : List Char) : Option (Nat × List Char) :=
  Text.number? 1 2 (Text.trimStart s)

def unlimited? (s : List Char) : Option (Nat × List Char) :=
  let digits := Text.digitRun s
  if digits.isEmpty then none else some (Text.numberOfDigits digits, Text.afterDigits s)

/-- A year, after blanks: up to four digits, or a sign with any number of digits. -/
def year? (s : List Char) : Option (Int × List Char) :=
  match Text.trimStart s with
  | '-' :: rest => (unlimited? rest).map fun (n, rest) => (-(n : Int), rest)
  | '+' :: rest => (unlimited? rest).map fun (n, rest) => ((n : Int), rest)
  | s => (Text.number? 1 4 s).map fun (n, rest) => ((n : Int), rest)

structure DayParts where
  year : Int
  month : Nat
  day : Nat

def dayParts? (s : List Char) : Option (DayParts × List Char) := do
  let (year, s) ← year? s
  let s ← Text.expect? '-' s
  let (month, s) ← loose? s
  let s ← Text.expect? '-' s
  let (day, s) ← loose? s
  return ({ year, month, day }, s)

def localTime? (s : List Char) : Option Int := do
  let (parts, s) ← dayParts? s
  let s ← Text.expect? 'T' s
  let (hour, s) ← loose? s
  let s ← Text.expect? ':' s
  let (minute, s) ← loose? s
  let s ← Text.expect? ':' s
  let (second, s) ← loose? s
  let (millis, s) ← fraction? s
  guard s.isEmpty
  epochMillisOfParts? parts.year parts.month parts.day hour minute second millis 0

def day? (s : List Char) : Option Int := do
  let (parts, s) ← dayParts? s
  guard s.isEmpty
  epochMillisOfParts? parts.year parts.month parts.day 0 0 0 0 0

end FormCheck.DateText
