import FormCheck.Date.Moment
import FormCheck.DateText.Parts

/-!
# Mail date-times

The form of dates in mail headers, as in `Tue, 1 Jan 2019 10:30:00 +0100`.  The
weekday and the seconds may be left out, years may have two or three digits,
offsets may have names, and comments between parentheses may follow.
-/

namespace FormCheck.DateText

def weekdays : List (String × Nat) :=
  [("sun", 0), ("mon", 1), ("tue", 2), ("wed", 3), ("thu", 4), ("fri", 5), ("sat", 6)]

def months : List (String × Nat) :=
  [("jan", 1), ("feb", 2), ("mar", 3), ("apr", 4), ("may", 5), ("jun", 6), ("jul", 7), ("aug", 8),
    ("sep", 9), ("oct", 10), ("nov", 11), ("dec", 12)]

def zones : List (String × Int) :=
  [("gmt", 0), ("ut", 0), ("z", 0), ("edt", -4), ("est", -5), ("cdt", -5), ("cst", -6),
    ("mdt", -6), ("mst", -7), ("pdt", -7), ("pst", -8)]

/-- A weekday with the comma right after it, if the text starts with a weekday. -/
def mailWeekday? (s : List Char) : Option (Option Nat × List Char) :=
  match Text.word? weekdays 3 s with
  | none => some (none, s)
  | some (weekday, rest) => (Text.expect? ',' rest).map fun rest => (some weekday, rest)

/-- A year of at least two digits.  Two digits stand for the years from 1950 to 2049 and three
digits count from 1900. -/
def mailYear? (s : List Char) : Option (Nat × List Char) :=
  let digits := Text.digitRun s
  let n := Text.numberOfDigits digits
  if digits.length < 2 then none
  else
    let year :=
      if digits.length = 2 then (if n < 50 then 2000 + n else 1900 + n)
      else if digits.length = 3 then 1900 + n
      else n
    some (year, Text.afterDigits s)

def mailSecond? (s : List Char) : Option (Nat × List Char) :=
  match Text.expect? ':' (Text.trimStart s) with
  | some rest => Text.number? 2 2 rest
  | none => some (0, s)

/-- The offset of a run of letters: a name of the list, or any single letter but J. -/
def zoneOfLetters? (letters : List Char) : Option Int :=
  let name := letters.map Char.toLower
  match zones.lookup (String.ofList name) with
  | some hours => some (hours * 60)
  | none => if name.length = 1 ∧ name ≠ ['j'] then some 0 else none

/-- An offset: a name, or a sign with two digits for the hours and two for the minutes. -/
def mailOffset? (s : List Char) : Option (Int × List Char) :=
  let letters := s.takeWhile Text.isLetter
  if letters.isEmpty then
    match s with
    | [] => none
    | c :: rest =>
      if c = '+' ∨ c = '-' then do
        let (hours, s) ← Text.number? 2 2 rest
        let (minutes, s) ← Text.number? 2 2 s
        let offset ← offset? (c = '-') hours minutes
        return (offset, s)
      else none
  else
    (zoneOfLetters? letters).map fun offset => (offset, s.dropWhile Text.isLetter)

/-- What follows a comment of which `depth + 1` parentheses are open.  A backslash takes away the
meaning of the next character. -/
def closeComment? : Nat → List Char → Option (List Char)
  | _, [] => none
  | _, ['\\'] => none
  | depth, '\\' :: _ :: rest => closeComment? depth rest
  | depth, '(' :: rest => closeComment? (depth + 1) rest
  | 0, ')' :: rest => some rest
  | depth + 1, ')' :: rest => closeComment? depth rest
  | depth, _ :: rest => closeComment? depth rest

def comment? (s : List Char) : Option (List Char) :=
  (Text.expect? '(' (Text.trimStart s)).bind (closeComment? 0)

def isComments : Nat → List Char → Bool
  | _, [] => true
  | 0, _ :: _ => false
  | fuel + 1, s =>
    match comment? s with
    | some rest => isComments fuel rest
    | none => false

def mail? (s : List Char) : Option Int := do
  let (weekday, s) ← mailWeekday? s
  let (day, s) ← Text.number? 1 2 (Text.trimStart s)
  let s ← Text.blanks? s
  let (month, s) ← Text.word? months 3 s
  let s ← Text.blanks? s
  let (year, s) ← mailYear? s
  let s ← Text.blanks? s
  let (hour, s) ← Text.number? 2 2 s
  let s ← Text.expect? ':' (Text.trimStart s)
  let (minute, s) ← Text.number? 2 2 (Text.trimStart s)
  let (second, s) ← mailSecond? s
  let s ← Text.blanks? s
  let (offset, s) ← mailOffset? s
  guard (isComments s.length s)
  let date ← Date.ofParts? year month day
  -- The weekday may be missing, but not wrong.
  guard (weekday.all fun weekday => date.weekday = weekday)
  let moment ← Moment.ofParts? date hour minute second 0
  moment.epochMillis? offset

end FormCheck.DateText
