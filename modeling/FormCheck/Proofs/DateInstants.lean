import FormCheck.Proofs.CalendarDays
import FormCheck.Proofs.MailTexts
import FormCheck.Value.Date

/-!
# The instants of written dates

All texts of a date, a time of day and an offset denote the same instant, which is
counted in milliseconds from the start of 1970: the days to the date, the time of the
day with its second 60, the first three digits of the fraction, and the offset taken
away.  A text whose day does not exist in its month is not a date in any form.
-/

namespace FormCheck

open DateText

/-! ## The instant of the parts -/

section Parts

variable {date : Date} {hour minute second millis : ℕ} {offset : ℤ}

theorem epochMillisOfParts?_date
    (hyear : 0 ≤ date.year ∧ date.year ≤ 9999) (hhour : hour < 24) (hminute : minute < 60)
    (hsecond : second ≤ 60) (hmillis : millis < 1000) (hoffset : -1440 < offset ∧ offset < 1440) :
    epochMillisOfParts? date.year date.month date.day hour minute second millis offset =
      some (86400000 * date.dayNumber + 3600000 * hour + 60000 * minute + 1000 * second + millis -
        60000 * offset) := by
  have hdate : Date.ofParts? date.year date.month date.day = some date :=
    Date.ofParts?_eq_some_iff.mpr ⟨rfl, rfl, rfl⟩
  have hday := Date.dayNumber_mem_of_year hyear
  have hleast : Date.least.dayNumber < -719528 := by decide
  have hgreatest : 2932897 < Date.greatest.dayNumber := by decide
  unfold epochMillisOfParts?
  apply scan_step hdate
  apply scan_step (dif_pos ⟨hhour, hminute, hsecond, hmillis⟩)
  unfold Moment.epochMillis? Moment.universalMinute
  simp only
  rw [if_pos (by omega), Option.some.injEq]
  omega

theorem epochMillisOfParts?_of_missing {year : ℤ} {month day : ℕ}
    (hmissing : Date.ofParts? year month day = none) :
    epochMillisOfParts? year month day hour minute second millis offset = none :=
  scan_stop hmissing

theorem millisOfFraction_lt {digits : List Char} (hdigits : ∀ c ∈ digits, c.isDigit = true) :
    millisOfFraction digits < 1000 := by
  have hall : ∀ c ∈ (digits ++ ['0', '0', '0']).take 3, c.isDigit = true := by
    intro c hc
    cases List.mem_append.mp (List.mem_of_mem_take hc) with
    | inl hdigit => exact hdigits c hdigit
    | inr hzero =>
        have hsame : c = '0' := by simpa using hzero
        rw [hsame]
        rfl
  have hlength : ((digits ++ ['0', '0', '0']).take 3).length = 3 := by simp
  have hbound := Text.numberOfDigits_lt hall
  rwa [hlength] at hbound

end Parts

/-! ## Trimming -/

/-- A text whose last character is a digit. -/
def EndsInDigit (s : List Char) : Prop :=
  ∃ c, s.getLast? = some c ∧ c.isDigit = true

theorem endsInDigit_of_digits {digits : List Char} (hne : digits ≠ [])
    (hdigits : ∀ c ∈ digits, c.isDigit = true) : EndsInDigit digits :=
  ⟨digits.getLast hne, List.getLast?_eq_some_getLast hne, hdigits _ (List.getLast_mem hne)⟩

theorem EndsInDigit.append_left {s : List Char} (hs : EndsInDigit s) (front : List Char) :
    EndsInDigit (front ++ s) := by
  obtain ⟨c, hlast, hc⟩ := hs
  refine ⟨c, ?_, hc⟩
  rw [List.getLast?_append, hlast, Option.some_or]

theorem EndsInDigit.cons {s : List Char} (hs : EndsInDigit s) (c : Char) : EndsInDigit (c :: s) :=
  hs.append_left [c]

theorem EndsInDigit.trim_eq_self
    {s : List Char} (hs : EndsInDigit s) (hfirst : ∀ c ∈ s.head?, Text.isBlank c = false) :
    Text.trim s = s := by
  apply Text.trim_eq_self hfirst
  obtain ⟨last, hlast, hdigit⟩ := hs
  intro c hc
  rw [hlast] at hc
  rw [← Option.some.inj hc]
  exact Text.isBlank_of_isDigit hdigit

theorem epochMillis?_ofList {s : List Char} (htrim : Text.trim s = s) :
    (Value.text (String.ofList s)).epochMillis? =
      (internet? s).or ((mail? s).or ((localTime? s).or (day? s))) := by
  change DateText.epochMillis? (String.ofList s) = _
  unfold DateText.epochMillis?
  rw [String.toList_ofList, htrim]
  simp only [Form.all, Form.read?, findSome?_cons_eq_or, List.findSome?_nil, Option.or_none]

namespace Stamp

variable (stamp : Stamp)

theorem endsInDigit_paddedDigits (length n : ℕ) : EndsInDigit (Text.paddedDigits length n) :=
  endsInDigit_of_digits (Text.paddedDigits_ne_nil length n) fun _ =>
    Text.isDigit_of_mem_paddedDigits

theorem endsInDigit_dayText : EndsInDigit stamp.dayText :=
  ((endsInDigit_paddedDigits 2 _).cons '-').append_left _

theorem endsInDigit_localText : EndsInDigit stamp.localText := by
  unfold localText fractionText
  by_cases hnone : stamp.fraction = []
  · have hclock : EndsInDigit stamp.clockText :=
      ((endsInDigit_paddedDigits 2 _).cons ':').append_left _
    rw [if_pos hnone, List.append_nil]
    exact (hclock.cons 'T').append_left _
  · rw [if_neg hnone]
    exact ((endsInDigit_of_digits hnone stamp.isDigit_fraction).cons '.').append_left _

theorem endsInDigit_offsetText (separator : List Char) :
    EndsInDigit (stamp.offsetText separator) :=
  (endsInDigit_paddedDigits 2 _).append_left _

theorem not_blank_head_dayText_append (rest : List Char) :
    ∀ c ∈ (stamp.dayText ++ rest).head?, Text.isBlank c = false := by
  rw [dayText_append]
  exact Text.not_blank_head_of_digits (Text.paddedDigits_ne_nil 4 _)
    (fun _ => Text.isDigit_of_mem_paddedDigits) _

theorem not_blank_head_localText_append (rest : List Char) :
    ∀ c ∈ (stamp.localText ++ rest).head?, Text.isBlank c = false := by
  rw [localText_append]
  exact stamp.not_blank_head_dayText_append _

theorem trim_dayText : Text.trim stamp.dayText = stamp.dayText := by
  apply stamp.endsInDigit_dayText.trim_eq_self
  rw [← List.append_nil stamp.dayText]
  exact stamp.not_blank_head_dayText_append []

theorem trim_localText : Text.trim stamp.localText = stamp.localText := by
  apply stamp.endsInDigit_localText.trim_eq_self
  rw [← List.append_nil stamp.localText]
  exact stamp.not_blank_head_localText_append []

theorem trim_internetText : Text.trim stamp.internetText = stamp.internetText := by
  apply ((stamp.endsInDigit_offsetText [':']).append_left _).trim_eq_self
  exact stamp.not_blank_head_localText_append _

theorem exists_letter_weekdayText (weekday : Fin 7) :
    ∃ letter more, weekdayText (some weekday) = letter :: more ∧ Text.isBlank letter = false := by
  fin_cases weekday <;> exact ⟨_, _, rfl, rfl⟩

theorem trim_mailText (weekday : Option (Fin 7)) (padded : Bool) :
    Text.trim (stamp.mailText weekday padded) = stamp.mailText weekday padded := by
  apply (((stamp.endsInDigit_offsetText []).cons ' ').append_left _).trim_eq_self
  change ∀ c ∈ (stamp.mailText weekday padded).head?, Text.isBlank c = false
  rw [mailText_eq]
  cases weekday with
  | none =>
      rw [weekdayText, List.nil_append]
      exact Text.not_blank_head_of_digits (stamp.mailDay_ne_nil padded)
        (fun _ => stamp.isDigit_mailDay padded) _
  | some weekday =>
      obtain ⟨letter, more, hname, hletter⟩ := exists_letter_weekdayText weekday
      rw [hname]
      intro c hc
      rw [← Option.some.inj hc]
      exact hletter

/-! ## Texts of a date that exists -/

def IsOn (stamp : Stamp) (date : Date) : Prop :=
  date.year = stamp.year ∧ date.month = stamp.month ∧ date.day = stamp.day

/-- The milliseconds of a stamp on a day, as if its offset were zero. -/
def millisOn (stamp : Stamp) (day : ℤ) : ℤ :=
  86400000 * day + 3600000 * stamp.hour + 60000 * stamp.minute + 1000 * stamp.second +
    Text.numberOfDigits ((stamp.fraction ++ ['0', '0', '0']).take 3)

theorem offset_mem : -1440 < stamp.offset ∧ stamp.offset < 1440 := by
  have hhours := stamp.offsetHours_lt
  have hminutes := stamp.offsetMinutes_lt
  unfold offset
  split
  · omega
  · omega

section Existing

variable {stamp} {date : Date}

theorem IsOn.ofParts?_eq (hon : stamp.IsOn date) :
    Date.ofParts? stamp.year stamp.month stamp.day = some date :=
  Date.ofParts?_eq_some_iff.mpr hon

theorem IsOn.year_mem (hon : stamp.IsOn date) : 0 ≤ date.year ∧ date.year ≤ 9999 := by
  have hyear := stamp.year_lt
  rw [hon.1]
  omega

theorem IsOn.epochMillisOfParts?_eq
    (hon : stamp.IsOn date) {offset : ℤ} (hoffset : -1440 < offset ∧ offset < 1440) :
    epochMillisOfParts? stamp.year stamp.month stamp.day stamp.hour stamp.minute stamp.second
        (millisOfFraction stamp.fraction) offset =
      some (stamp.millisOn date.dayNumber - 60000 * offset) := by
  have hmillis := millisOfFraction_lt stamp.isDigit_fraction
  have hvalue := epochMillisOfParts?_date hon.year_mem stamp.hour_lt stamp.minute_lt
    stamp.second_le hmillis hoffset
  rw [hon.1, hon.2.1, hon.2.2] at hvalue
  exact hvalue

theorem IsOn.epochMillis?_internetText (hon : stamp.IsOn date) :
    (Value.text (String.ofList stamp.internetText)).epochMillis? =
      some (stamp.millisOn date.dayNumber - 60000 * stamp.offset) := by
  rw [epochMillis?_ofList stamp.trim_internetText, internet?_internetText,
    hon.epochMillisOfParts?_eq stamp.offset_mem, Option.some_or]

theorem IsOn.epochMillis?_localText (hon : stamp.IsOn date) :
    (Value.text (String.ofList stamp.localText)).epochMillis? =
      some (stamp.millisOn date.dayNumber) := by
  have hvalue := hon.epochMillisOfParts?_eq (by omega : -1440 < (0 : ℤ) ∧ (0 : ℤ) < 1440)
  rw [epochMillis?_ofList stamp.trim_localText, internet?_localText, mail?_localText,
    localTime?_localText, hvalue]
  simp

theorem IsOn.epochMillis?_dayText (hon : stamp.IsOn date) :
    (Value.text (String.ofList stamp.dayText)).epochMillis? =
      some (86400000 * date.dayNumber) := by
  have hvalue : epochMillisOfParts? stamp.year stamp.month stamp.day 0 0 0 0 0 =
      some (86400000 * date.dayNumber) := by
    rw [← hon.1, ← hon.2.1, ← hon.2.2, epochMillisOfParts?_date hon.year_mem (by omega)
      (by omega) (by omega) (by omega) (by omega)]
    simp
  rw [epochMillis?_ofList stamp.trim_dayText, internet?_dayText, mail?_dayText,
    localTime?_dayText, day?_dayText, hvalue]
  rfl

theorem IsOn.epochMillis?_mailText
    (hon : stamp.IsOn date) (hnone : stamp.fraction = []) {weekday : Option (Fin 7)}
    (hweekday : ∀ day ∈ weekday, date.weekday = day.val) (padded : Bool) :
    (Value.text (String.ofList (stamp.mailText weekday padded))).epochMillis? =
      some (stamp.millisOn date.dayNumber - 60000 * stamp.offset) := by
  have hvalue := hon.epochMillisOfParts?_eq stamp.offset_mem
  have hright : (weekday.map Fin.val).all (fun day => date.weekday = day) = true := by
    cases weekday with
    | none => rfl
    | some weekday => exact decide_eq_true (hweekday weekday rfl)
  have hmail : mail? (stamp.mailText weekday padded) =
      some (stamp.millisOn date.dayNumber - 60000 * stamp.offset) := by
    rw [← hvalue, mail?_mailText, hnone]
    unfold epochMillisOfParts?
    rw [hon.ofParts?_eq]
    exact scan_step rfl (scan_step (if_pos hright) rfl)
  rw [epochMillis?_ofList (stamp.trim_mailText weekday padded), internet?_mailText, hmail]
  rfl

end Existing

/-! ## Texts of a day that does not exist -/

section Missing

variable {stamp} (hmissing : Date.ofParts? stamp.year stamp.month stamp.day = none)
include hmissing

theorem day?_dayText_append_of_missing (rest : List Char) :
    day? (stamp.dayText ++ rest) = none := by
  rw [day?_dayText_append, epochMillisOfParts?_of_missing hmissing]
  exact Option.bind_fun_none _

theorem day?_localText_append_of_missing (rest : List Char) :
    day? (stamp.localText ++ rest) = none := by
  rw [localText_append]
  exact day?_dayText_append_of_missing hmissing _

theorem epochMillis?_internetText_of_missing :
    (Value.text (String.ofList stamp.internetText)).epochMillis? = none := by
  have hlocal : localTime? stamp.internetText = none := by
    rw [internetText, stamp.localTime?_localText_append fun _ => stamp.head?_offsetText,
      epochMillisOfParts?_of_missing hmissing]
    exact Option.bind_fun_none _
  rw [epochMillis?_ofList stamp.trim_internetText, internet?_internetText,
    epochMillisOfParts?_of_missing hmissing, hlocal, internetText, mail?_localText_append,
    day?_localText_append_of_missing hmissing]
  rfl

theorem epochMillis?_localText_of_missing :
    (Value.text (String.ofList stamp.localText)).epochMillis? = none := by
  have hday := day?_localText_append_of_missing hmissing []
  rw [List.append_nil] at hday
  rw [epochMillis?_ofList stamp.trim_localText, internet?_localText, mail?_localText,
    localTime?_localText, epochMillisOfParts?_of_missing hmissing, hday]
  rfl

theorem epochMillis?_dayText_of_missing :
    (Value.text (String.ofList stamp.dayText)).epochMillis? = none := by
  have hday := day?_dayText_append_of_missing hmissing []
  rw [List.append_nil] at hday
  rw [epochMillis?_ofList stamp.trim_dayText, internet?_dayText, mail?_dayText,
    localTime?_dayText, hday]
  rfl

theorem epochMillis?_mailText_of_missing (weekday : Option (Fin 7)) (padded : Bool) :
    (Value.text (String.ofList (stamp.mailText weekday padded))).epochMillis? = none := by
  have hmail : mail? (stamp.mailText weekday padded) = none := by
    rw [mail?_mailText]
    exact scan_stop hmissing
  have hparts := stamp.dayParts?_mailText weekday padded
  rw [epochMillis?_ofList (stamp.trim_mailText weekday padded), internet?_mailText, hmail,
    localTime?, day?, hparts]
  rfl

end Missing

/-- The texts of a date, a time of day and an offset denote one instant, in milliseconds from the
start of 1970, and days are counted from there.  Without an offset the time is universal, and
without a time it is midnight.  A text whose day does not exist in its month is not a date. -/
theorem texts_denote_instants :
    (∀ (date : Date) (days : ℕ),
      (date.dayNumber = days ↔ Date.epoch.after? days = some date) ∧
      (date.dayNumber = -days ↔ date.after? days = some Date.epoch)) ∧
    (Date.epoch.weekday = 4 ∧
      ∀ date next : Date, date.tomorrow? = some next → next.weekday = (date.weekday + 1) % 7) ∧
    (∀ (stamp : Stamp) (date : Date), stamp.IsOn date →
      (Value.text (String.ofList stamp.internetText)).epochMillis? =
        some (stamp.millisOn date.dayNumber - 60000 * stamp.offset) ∧
      (Value.text (String.ofList stamp.localText)).epochMillis? =
        some (stamp.millisOn date.dayNumber) ∧
      (Value.text (String.ofList stamp.dayText)).epochMillis? =
        some (86400000 * date.dayNumber) ∧
      (stamp.fraction = [] → ∀ (weekday : Option (Fin 7)) (padded : Bool),
        (∀ day ∈ weekday, date.weekday = day.val) →
        (Value.text (String.ofList (stamp.mailText weekday padded))).epochMillis? =
          (Value.text (String.ofList stamp.internetText)).epochMillis?)) ∧
    ∀ stamp : Stamp,
      ¬ (1 ≤ stamp.day ∧ stamp.day ≤ Calendar.daysInMonth stamp.year stamp.month) →
      (Value.text (String.ofList stamp.internetText)).epochMillis? = none ∧
      (Value.text (String.ofList stamp.localText)).epochMillis? = none ∧
      (Value.text (String.ofList stamp.dayText)).epochMillis? = none ∧
      ∀ (weekday : Option (Fin 7)) (padded : Bool),
        (Value.text (String.ofList (stamp.mailText weekday padded))).epochMillis? = none := by
  refine ⟨Date.dayNumber_eq_count, ⟨by decide, fun _ _ => Date.weekday_tomorrow⟩, ?_, ?_⟩
  · intro stamp date hon
    refine ⟨hon.epochMillis?_internetText, hon.epochMillis?_localText, hon.epochMillis?_dayText, ?_⟩
    intro hnone weekday padded hweekday
    rw [hon.epochMillis?_mailText hnone hweekday padded, hon.epochMillis?_internetText]
  · intro stamp hday
    have hmissing : Date.ofParts? stamp.year stamp.month stamp.day = none :=
      Date.ofParts?_eq_none_iff.mpr fun hexists => hday hexists.2.2
    exact ⟨epochMillis?_internetText_of_missing hmissing,
      epochMillis?_localText_of_missing hmissing, epochMillis?_dayText_of_missing hmissing,
      epochMillis?_mailText_of_missing hmissing⟩

/-- A leap second before midnight in universal time, which is an evening elsewhere. -/
def leapSecond : Stamp where
  year := 2015
  month := 6
  day := 30
  hour := 18
  minute := 59
  second := 60
  fraction := []
  behind := true
  offsetHours := 5
  offsetMinutes := 0
  year_lt := by decide
  month_mem := by decide
  day_lt := by decide
  hour_lt := by decide
  minute_lt := by decide
  second_le := by decide
  isDigit_fraction := by simp
  offsetHours_lt := by decide
  offsetMinutes_lt := by decide

/-- A leap day in a year that is no leap year. -/
def noLeapDay : Stamp :=
  { leapSecond with
    year := 1900
    month := 2
    day := 29
    fraction := ['5']
    year_lt := by decide
    month_mem := by decide
    day_lt := by decide
    isDigit_fraction := by simp }

def leapDate : Date :=
  (Date.ofParts? 2015 6 30).get (by decide)

theorem leapSecond_denotes_instants :
    (Value.text "2015-06-30T18:59:60-05:00").epochMillis? = some 1435708800000 ∧
    (Value.text "Tue, 30 Jun 2015 18:59:60 -0500").epochMillis? = some 1435708800000 ∧
    (Value.text "2015-06-30").epochMillis? = some 1435622400000 ∧
    (Value.text "1900-02-29T18:59:60.5").epochMillis? = none := by
  have hinstant : leapSecond.millisOn leapDate.dayNumber - 60000 * leapSecond.offset =
      1435708800000 := by decide
  have hmidnight : 86400000 * leapDate.dayNumber = 1435622400000 := by decide
  have hon : leapSecond.IsOn leapDate := ⟨rfl, rfl, rfl⟩
  obtain ⟨hinternet, -, hday, hmail⟩ := texts_denote_instants.2.2.1 leapSecond leapDate hon
  obtain ⟨-, hmissing, -⟩ := texts_denote_instants.2.2.2 noLeapDay (by decide)
  have htuesday := hmail rfl (some 2) true (by decide)
  rw [hinternet] at htuesday
  rw [hinstant] at hinternet htuesday
  rw [hmidnight] at hday
  exact ⟨hinternet, htuesday, hday, hmissing⟩

end Stamp

end FormCheck
