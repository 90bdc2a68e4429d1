/-!
# The calendar

Dates are those of the Gregorian calendar, extended to all years.  Every fourth
year is a leap year, except for the full centuries that are not divisible by
four hundred.  Days are numbered from the first of January 1970, which has the
number zero and was a Thursday.
-/

namespace FormCheck

namespace Calendar

def isLeapYear (year : Int) : Bool :=
  year % 4 = 0 && (year % 100 ≠ 0 || year % 400 = 0)

/-- The number of days of a month, for months from 1 to 12. -/
def daysInMonth (year : Int) (month : Nat) : Nat :=
  if month = 2 then (if isLeapYear year then 29 else 28)
  else if month = 4 ∨ month = 6 ∨ month = 9 ∨ month = 11 then 30
  else 31

def daysBeforeMonth (year : Int) : Nat → Nat
  | 0 => 0
  | 1 => 0
  | month + 2 => daysBeforeMonth year (month + 1) + daysInMonth year (month + 1)

def daysBeforeYear (year : Int) : Int :=
  365 * (year - 1) + (year - 1) / 4 - (year - 1) / 100 + (year - 1) / 400

def leastYear : Int := -262143

def greatestYear : Int := 262142

end Calendar

structure Date where
  year : Int
  month : Nat
  day : Nat
  year_supported : Calendar.leastYear ≤ year ∧ year ≤ Calendar.greatestYear
  month_mem : 1 ≤ month ∧ month ≤ 12
  day_mem : 1 ≤ day ∧ day ≤ Calendar.daysInMonth year month
  deriving DecidableEq

namespace Date

/-- The date of a year, a month and a day, if it exists and is supported. -/
def ofParts? (year : Int) (month day : Nat) : Option Date :=
  if h : (Calendar.leastYear ≤ year ∧ year ≤ Calendar.greatestYear) ∧
      (1 ≤ month ∧ month ≤ 12) ∧ (1 ≤ day ∧ day ≤ Calendar.daysInMonth year month) then
    some ⟨year, month, day, h.1, h.2.1, h.2.2⟩
  else
    none

/-- The number of the day, counted from the first of January 1970. -/
def dayNumber (date : Date) : Int :=
  Calendar.daysBeforeYear date.year - Calendar.daysBeforeYear 1970 +
    Calendar.daysBeforeMonth date.year date.month + date.day - 1

/-- The day of the week, where Sunday is 0 and Saturday is 6. -/
def weekday (date : Date) : Nat :=
  ((date.dayNumber + 4) % 7).toNat

def least : Date where
  year := Calendar.leastYear
  month := 1
  day := 1
  year_supported := by decide
  month_mem := by decide
  day_mem := by decide

def greatest : Date where
  year := Calendar.greatestYear
  month := 12
  day := 31
  year_supported := by decide
  month_mem := by decide
  day_mem := by decide

end Date

end FormCheck
