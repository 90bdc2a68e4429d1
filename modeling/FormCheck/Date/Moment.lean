import FormCheck.Date.Calendar

/-!
# Moments

A moment is a date with a time of day, to the millisecond.  Second 60 is
allowed in every minute and follows second 59.  Together with an offset from
universal time a moment has a number of milliseconds since the start of 1970;
the day on which it falls in universal time has to be supported as well.
-/

namespace FormCheck

structure Moment where
  date : Date
  hour : Nat
  minute : Nat
  second : Nat
  millis : Nat
  hour_lt : hour < 24
  minute_lt : minute < 60
  second_le : second ≤ 60
  millis_lt : millis < 1000

namespace Moment

def ofParts? (date : Date) (hour minute second millis : Nat) : Option Moment :=
  if h : hour < 24 ∧ minute < 60 ∧ second ≤ 60 ∧ millis < 1000 then
    some ⟨date, hour, minute, second, millis, h.1, h.2.1, h.2.2.1, h.2.2.2⟩
  else
    none

/-- The number of the minute in universal time, for an offset in minutes. -/
def universalMinute (moment : Moment) (offset : Int) : Int :=
  moment.date.dayNumber * 1440 + moment.hour * 60 + moment.minute - offset

/-- The milliseconds since the start of 1970, for an offset in minutes. -/
def epochMillis? (moment : Moment) (offset : Int) : Option Int :=
  let minute := moment.universalMinute offset
  if Date.least.dayNumber ≤ minute / 1440 ∧ minute / 1440 ≤ Date.greatest.dayNumber then
    some (minute * 60000 + moment.second * 1000 + moment.millis)
  else
    none

end Moment

def epochMillisOfParts? (year : Int) (month day hour minute second millis : Nat) (offset : Int) :
    Option Int := do
  let date ← Date.ofParts? year month day
  let moment ← Moment.ofParts? date hour minute second millis
  moment.epochMillis? offset

end FormCheck
