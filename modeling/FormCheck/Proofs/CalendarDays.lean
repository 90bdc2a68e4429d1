import FormCheck.Date.Calendar
import Mathlib.Order.Monotone.Basic
import Mathlib.Algebra.Order.Group.Int
import Mathlib.Order.SuccPred.Basic

/-!
# Counting days

The day after a date is the next one of its month, or else the first of the next
month, or else the first of the next year.  The number of a day is what counting
such steps gives: from the first of January 1970 forward to a later date, and from
an earlier date forward to it.
-/

namespace FormCheck

/-! ## Lengths of months and years -/

namespace Calendar

theorem daysBeforeMonth_succ (year : ℤ) {month : ℕ} (hmonth : 1 ≤ month) :
    daysBeforeMonth year (month + 1) = daysBeforeMonth year month + daysInMonth year month := by
  obtain ⟨before, rfl⟩ := Nat.exists_eq_add_of_le' hmonth
  rfl

theorem daysBeforeMonth_le (year : ℤ) {month later : ℕ} (hle : month ≤ later) :
    daysBeforeMonth year month ≤ daysBeforeMonth year later := by
  refine monotone_nat_of_le_succ ?_ hle
  intro month
  cases month with
  | zero => exact le_rfl
  | succ before => exact Nat.le_add_right _ _

/-- The months of a year and the leap day, if there is one, fill the year. -/
theorem daysBeforeYear_succ (year : ℤ) :
    daysBeforeYear (year + 1) = daysBeforeYear year + daysBeforeMonth year 13 := by
  have hmonths : daysBeforeMonth year 13 = 365 + (isLeapYear year).toNat := by
    simp only [daysBeforeMonth, daysInMonth]
    cases isLeapYear year <;> rfl
  rw [hmonths]
  unfold daysBeforeYear
  by_cases hleap : isLeapYear year = true
  · rw [hleap]
    simp only [isLeapYear, Bool.and_eq_true, Bool.or_eq_true, decide_eq_true_eq] at hleap
    simp only [Bool.toNat_true]
    omega
  · rw [Bool.eq_false_iff.mpr hleap]
    simp only [isLeapYear, Bool.and_eq_true, Bool.or_eq_true, decide_eq_true_eq] at hleap
    simp only [Bool.toNat_false]
    omega

theorem daysBeforeYear_le {year later : ℤ} (hle : year ≤ later) :
    daysBeforeYear year ≤ daysBeforeYear later := by
  refine monotone_int_of_le_succ ?_ hle
  intro year
  rw [daysBeforeYear_succ]
  omega

theorem daysInMonth_pos (year : ℤ) (month : ℕ) : 1 ≤ daysInMonth year month := by
  unfold daysInMonth
  split
  · split <;> decide
  · split <;> decide

end Calendar

namespace Date

open Calendar

variable {date next later : Date} {year : ℤ} {month day : ℕ}

theorem ofParts?_eq_some_iff :
    ofParts? year month day = some date ↔
      date.year = year ∧ date.month = month ∧ date.day = day := by
  unfold ofParts?
  constructor
  · intro hdate
    split at hdate
    · cases hdate
      exact ⟨rfl, rfl, rfl⟩
    · cases hdate
  · rintro ⟨rfl, rfl, rfl⟩
    rw [dif_pos ⟨date.year_supported, date.month_mem, date.day_mem⟩]

theorem ofParts?_eq_none_iff :
    ofParts? year month day = none ↔
      ¬ ((leastYear ≤ year ∧ year ≤ greatestYear) ∧ (1 ≤ month ∧ month ≤ 12) ∧
        (1 ≤ day ∧ day ≤ daysInMonth year month)) := by
  unfold ofParts?
  split
  · next hexists => simp [hexists]
  · next hmissing => simp [hmissing]

/-! ## The number of a day in its year -/

theorem day_le_month_end (date : Date) :
    daysBeforeMonth date.year date.month + date.day ≤
      daysBeforeMonth date.year (date.month + 1) := by
  rw [daysBeforeMonth_succ _ date.month_mem.1]
  exact Nat.add_le_add_left date.day_mem.2 _

theorem day_le_year_end (date : Date) :
    daysBeforeMonth date.year date.month + date.day ≤ daysBeforeMonth date.year 13 :=
  date.day_le_month_end.trans
    (daysBeforeMonth_le date.year (Nat.succ_le_succ date.month_mem.2))

theorem year_le_of_dayNumber_le (hle : date.dayNumber ≤ later.dayNumber) :
    date.year ≤ later.year := by
  by_contra hyears
  have hmonotone : daysBeforeYear (later.year + 1) ≤ daysBeforeYear date.year :=
    daysBeforeYear_le (by omega)
  have hlast := later.day_le_year_end
  have hfirst := date.day_mem.1
  rw [daysBeforeYear_succ] at hmonotone
  unfold dayNumber at hle
  omega

theorem month_le_of_dayNumber_le
    (hyear : date.year = later.year) (hle : date.dayNumber ≤ later.dayNumber) :
    date.month ≤ later.month := by
  by_contra hmonths
  have hmonotone : daysBeforeMonth later.year (later.month + 1) ≤
      daysBeforeMonth later.year date.month :=
    daysBeforeMonth_le later.year (by omega)
  have hlast := later.day_le_month_end
  have hfirst := date.day_mem.1
  unfold dayNumber at hle
  rw [hyear] at hle
  omega

/-- Different days have different numbers. -/
theorem dayNumber_injective (hsame : date.dayNumber = later.dayNumber) : date = later := by
  have hyear : date.year = later.year :=
    le_antisymm (year_le_of_dayNumber_le hsame.le) (year_le_of_dayNumber_le hsame.ge)
  have hmonth : date.month = later.month :=
    le_antisymm (month_le_of_dayNumber_le hyear hsame.le)
      (month_le_of_dayNumber_le hyear.symm hsame.ge)
  have hday : date.day = later.day := by
    unfold dayNumber at hsame
    rw [hyear, hmonth] at hsame
    omega
  have hself : ofParts? date.year date.month date.day = some date :=
    ofParts?_eq_some_iff.mpr ⟨rfl, rfl, rfl⟩
  rw [ofParts?_eq_some_iff.mpr ⟨hyear.symm, hmonth.symm, hday.symm⟩] at hself
  exact (Option.some.inj hself).symm

/-- The years of up to four digits go from the day -719528 to the day 2932896. -/
theorem dayNumber_mem_of_year (hyear : 0 ≤ date.year ∧ date.year ≤ 9999) :
    -719528 ≤ date.dayNumber ∧ date.dayNumber ≤ 2932896 := by
  have hfirst : daysBeforeYear 0 - daysBeforeYear 1970 = -719528 := by decide
  have hlast : daysBeforeYear 10000 - daysBeforeYear 1970 = 2932897 := by decide
  have hbefore := daysBeforeYear_le hyear.1
  have hafter : daysBeforeYear (date.year + 1) ≤ daysBeforeYear 10000 :=
    daysBeforeYear_le (by omega)
  have hday := date.day_mem.1
  have hend := date.day_le_year_end
  rw [daysBeforeYear_succ] at hafter
  unfold dayNumber
  omega

/-! ## The next day -/

/-- The next day, unless the date is the last one that is supported. -/
def tomorrow? (date : Date) : Option Date :=
  (ofParts? date.year date.month (date.day + 1)).or
    ((ofParts? date.year (date.month + 1) 1).or (ofParts? (date.year + 1) 1 1))

/-- The date that is some days later. -/
def after? (date : Date) : ℕ → Option Date
  | 0 => some date
  | days + 1 => date.tomorrow?.bind fun next => next.after? days

theorem day_eq_of_last (hlast : ofParts? date.year date.month (date.day + 1) = none) :
    date.day = daysInMonth date.year date.month := by
  have hday := date.day_mem
  rw [ofParts?_eq_none_iff] at hlast
  by_contra hne
  exact hlast ⟨date.year_supported, date.month_mem, by omega, by omega⟩

theorem month_eq_of_last (hlast : ofParts? date.year (date.month + 1) 1 = none) :
    date.month = 12 := by
  have hmonth := date.month_mem
  rw [ofParts?_eq_none_iff] at hlast
  by_contra hne
  exact hlast ⟨date.year_supported, by omega, le_rfl, daysInMonth_pos _ _⟩

theorem dayNumber_of_last
    (hday : date.day = daysInMonth date.year date.month) (hmonth : date.month = 12) :
    date.dayNumber + 1 = daysBeforeYear (date.year + 1) - daysBeforeYear 1970 := by
  have hmonths : daysBeforeMonth date.year 13 =
      daysBeforeMonth date.year 12 + daysInMonth date.year 12 :=
    daysBeforeMonth_succ date.year (by decide)
  rw [daysBeforeYear_succ]
  unfold dayNumber
  rw [hmonth] at hday ⊢
  omega

/-- One step adds one to the number of the day. -/
theorem dayNumber_tomorrow (hnext : date.tomorrow? = some next) :
    next.dayNumber = date.dayNumber + 1 := by
  unfold tomorrow? at hnext
  cases hsame : ofParts? date.year date.month (date.day + 1) with
  | some other =>
      rw [hsame, Option.some_or, Option.some.injEq] at hnext
      rw [hnext] at hsame
      obtain ⟨hyear, hmonth, hday⟩ := ofParts?_eq_some_iff.mp hsame
      unfold dayNumber
      rw [hyear, hmonth, hday]
      omega
  | none =>
      have hday := day_eq_of_last hsame
      rw [hsame, Option.none_or] at hnext
      cases hmonth : ofParts? date.year (date.month + 1) 1 with
      | some other =>
          rw [hmonth, Option.some_or, Option.some.injEq] at hnext
          rw [hnext] at hmonth
          obtain ⟨hyear, hnextMonth, hfirst⟩ := ofParts?_eq_some_iff.mp hmonth
          unfold dayNumber
          rw [hyear, hnextMonth, hfirst, daysBeforeMonth_succ _ date.month_mem.1, hday]
          omega
      | none =>
          have hlast := dayNumber_of_last hday (month_eq_of_last hmonth)
          rw [hmonth, Option.none_or] at hnext
          obtain ⟨hyear, hfirstMonth, hfirst⟩ := ofParts?_eq_some_iff.mp hnext
          rw [hlast, dayNumber, hyear, hfirstMonth, hfirst]
          simp [daysBeforeMonth]

theorem dayNumber_le_greatest (date : Date) : date.dayNumber ≤ greatest.dayNumber := by
  have hyears : daysBeforeYear (date.year + 1) ≤ daysBeforeYear (greatestYear + 1) :=
    daysBeforeYear_le (by have := date.year_supported.2; omega)
  have hlast := date.day_le_year_end
  have hgreatest : greatest.dayNumber + 1 =
      daysBeforeYear (greatestYear + 1) - daysBeforeYear 1970 := by decide
  rw [daysBeforeYear_succ] at hyears
  unfold dayNumber at hgreatest ⊢
  omega

/-- The days of the week follow one another. -/
theorem weekday_tomorrow (hnext : date.tomorrow? = some next) :
    next.weekday = (date.weekday + 1) % 7 := by
  have hstep := dayNumber_tomorrow hnext
  unfold weekday
  omega

theorem dayNumber_of_no_tomorrow (hnone : date.tomorrow? = none) :
    date.dayNumber = greatest.dayNumber := by
  unfold tomorrow? at hnone
  rw [Option.or_eq_none_iff, Option.or_eq_none_iff] at hnone
  obtain ⟨hday, hmonth, hyear⟩ := hnone
  have hlast := dayNumber_of_last (day_eq_of_last hday) (month_eq_of_last hmonth)
  have hgreatestYear : date.year = greatestYear := by
    have hsupported := date.year_supported
    rw [ofParts?_eq_none_iff] at hyear
    by_contra hne
    exact hyear ⟨⟨by omega, by omega⟩, by decide, le_rfl, daysInMonth_pos _ _⟩
  have hgreatest : greatest.dayNumber + 1 =
      daysBeforeYear (greatestYear + 1) - daysBeforeYear 1970 := by decide
  rw [hgreatestYear] at hlast
  omega

/-! ## Counting -/

/-- The date that is some days later is the one whose number is greater by as many. -/
theorem after?_eq_some_iff (days : ℕ) :
    date.after? days = some later ↔ later.dayNumber = date.dayNumber + days := by
  induction days generalizing date with
  | zero =>
      rw [after?, Option.some.injEq]
      constructor
      · intro hsame
        rw [hsame]
        omega
      · intro hnumber
        exact dayNumber_injective (by omega)
  | succ days ih =>
      rw [after?]
      cases hnext : date.tomorrow? with
      | none =>
          -- Counting only stops at the last supported date, and no date has a greater number.
          have hlast := dayNumber_of_no_tomorrow hnext
          have hbound := later.dayNumber_le_greatest
          simp only [Option.bind_none, reduceCtorEq, false_iff]
          omega
      | some next =>
          have hstep := dayNumber_tomorrow hnext
          rw [Option.bind_some, ih]
          omega

/-- The first of January 1970. -/
def epoch : Date :=
  (ofParts? 1970 1 1).get (by decide)

theorem dayNumber_epoch : epoch.dayNumber = 0 := by
  decide

/-- The number of a day counts the days from the first of January 1970 to it, or is the negative
count of the days from it to the first of January 1970. -/
theorem dayNumber_eq_count (date : Date) (days : ℕ) :
    (date.dayNumber = days ↔ epoch.after? days = some date) ∧
      (date.dayNumber = -days ↔ date.after? days = some epoch) := by
  rw [after?_eq_some_iff, after?_eq_some_iff, dayNumber_epoch]
  omega

end Date

end FormCheck
