import FormCheck.Date.Calendar
import FormCheck.Text.Scan

/-!
# Dates and times in TOML

A date-time is a day, a time of day, or both.  If there are both, an offset from
universal time may follow.  All numbers have a fixed width, except for the
fraction of a second, of which nine digits count.

A date-time has one canonical text, which differs from what was read in a few
places: the day and the time are joined by `T`, the fraction has no trailing
zeros, and an offset of zero minutes has a plus sign.
-/

namespace FormCheck.Toml

/-- A time of day.  The second 60 is there for leap seconds. -/
structure TimeOfDay where
  hour : Nat
  minute : Nat
  second : Nat
  nanosecond : Nat
  deriving DecidableEq

/-- An offset from universal time, which stands for itself or is given in minutes. -/
inductive Offset where
  | universal
  | minutes (n : Int)
  deriving DecidableEq

inductive DateTime where
  | dateOnly (date : Date)
  | timeOnly (time : TimeOfDay)
  | dateTime (date : Date) (time : TimeOfDay) (offset : Option Offset)
  deriving DecidableEq

/-! ## Texts -/

def dateText (date : Date) : List Char :=
  Text.paddedDigits 4 date.year.toNat ++ ['-'] ++ Text.paddedDigits 2 date.month ++ ['-'] ++
    Text.paddedDigits 2 date.day

def fractionText (nanosecond : Nat) : List Char :=
  if nanosecond = 0 then []
  else
    '.' :: ((Text.paddedDigits 9 nanosecond).reverse.dropWhile (· = '0')).reverse

namespace TimeOfDay

def text (time : TimeOfDay) : List Char :=
  Text.paddedDigits 2 time.hour ++ [':'] ++ Text.paddedDigits 2 time.minute ++ [':'] ++
    Text.paddedDigits 2 time.second ++ fractionText time.nanosecond

end TimeOfDay

namespace Offset

def text : Offset → List Char
  | .universal => ['Z']
  | .minutes n =>
    (if n < 0 then '-' else '+') ::
      (Text.paddedDigits 2 (n.natAbs / 60) ++ [':'] ++ Text.paddedDigits 2 (n.natAbs % 60))

end Offset

namespace DateTime

def text (value : DateTime) : String :=
  String.ofList <| match value with
    | .dateOnly date => dateText date
    | .timeOnly time => time.text
    | .dateTime date time offset =>
      dateText date ++ ['T'] ++ time.text ++ (offset.map Offset.text).getD []

end DateTime

/-! ## Reading -/

def readTwoDigits (greatest : Nat) (s : List Char) : Option (Nat × List Char) := do
  let (n, s) ← Text.number? 2 2 s
  guard (n ≤ greatest)
  return (n, s)

def readDate (s : List Char) : Option (Date × List Char) := do
  let (year, s) ← Text.number? 4 4 s
  let s ← Text.expect? '-' s
  let (month, s) ← Text.number? 2 2 s
  let s ← Text.expect? '-' s
  let (day, s) ← Text.number? 2 2 s
  let date ← Date.ofParts? year month day
  return (date, s)

/-- The nanoseconds of the digits of a fraction: the first nine digits, filled up with zeros. -/
def nanosOfFraction (digits : List Char) : Nat :=
  Text.numberOfDigits ((digits ++ List.replicate 9 '0').take 9)

/-- A fraction of a second, if there is a point; the point needs a digit after it. -/
def readSecondFraction : List Char → Option (Nat × List Char)
  | '.' :: rest =>
    let digits := Text.digitRun rest
    if digits.isEmpty then none else some (nanosOfFraction digits, Text.afterDigits rest)
  | s => some (0, s)

def readTime (s : List Char) : Option (TimeOfDay × List Char) := do
  let (hour, s) ← readTwoDigits 23 s
  let s ← Text.expect? ':' s
  let (minute, s) ← readTwoDigits 59 s
  let s ← Text.expect? ':' s
  let (second, s) ← readTwoDigits 60 s
  let (nanosecond, s) ← readSecondFraction s
  return ({ hour, minute, second, nanosecond }, s)

def readOffsetMinutes (negative : Bool) (s : List Char) : Option (Option Offset × List Char) := do
  let (hours, s) ← readTwoDigits 23 s
  let s ← Text.expect? ':' s
  let (minutes, s) ← readTwoDigits 59 s
  let n : Int := hours * 60 + minutes
  return (some (.minutes (if negative then -n else n)), s)

def readOffset : List Char → Option (Option Offset × List Char)
  | 'Z' :: rest => some (some .universal, rest)
  | 'z' :: rest => some (some .universal, rest)
  | '+' :: rest => readOffsetMinutes false rest
  | '-' :: rest => readOffsetMinutes true rest
  | s => some (none, s)

def readTimeAfter (date : Date) (s : List Char) : Option (DateTime × List Char) := do
  let s ← Text.expectAny? ['T', 't', ' '] s
  let (time, s) ← readTime s
  let (offset, s) ← readOffset s
  return (.dateTime date time offset, s)

/-- A date-time.  A day that is not followed by a time stands alone, even if blanks follow. -/
def readDateTime (s : List Char) : Option (DateTime × List Char) :=
  match readDate s with
  | some (date, rest) =>
    match readTimeAfter date rest with
    | some found => some found
    | none => some (.dateOnly date, rest)
  | none => (readTime s).map fun (time, rest) => (.timeOnly time, rest)

end FormCheck.Toml
