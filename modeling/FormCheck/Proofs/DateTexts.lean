import FormCheck.DateText.Form
import FormCheck.Proofs.TextRuns
import Mathlib.Data.Int.Notation

/-!
# Written dates

A stamp is a date with a time of day and an offset, as they are written: whether the
day exists in its month is left open.  It can be written in each of the four forms.
The forms without words read their own texts as the parts of the stamp, and they do
not read the texts of one another.
-/

namespace FormCheck

/-- A fraction of a second as it is written; without digits no point is written. -/
def DateText.fractionText (digits : List Char) : List Char :=
  if digits = [] then [] else '.' :: digits

structure Stamp where
  year : ℕ
  month : ℕ
  day : ℕ
  hour : ℕ
  minute : ℕ
  second : ℕ
  /-- The digits after the point of the seconds; without digits no point is written. -/
  fraction : List Char
  /-- Whether the offset is written with a minus sign. -/
  behind : Bool
  offsetHours : ℕ
  offsetMinutes : ℕ
  year_lt : year < 10000
  month_mem : 1 ≤ month ∧ month ≤ 12
  day_lt : day < 100
  hour_lt : hour < 24
  minute_lt : minute < 60
  second_le : second ≤ 60
  isDigit_fraction : ∀ c ∈ fraction, c.isDigit = true
  offsetHours_lt : offsetHours < 24
  offsetMinutes_lt : offsetMinutes < 60

namespace Stamp

open DateText

variable (stamp : Stamp)

/-! ## Writing -/

def dayText : List Char :=
  Text.paddedDigits 4 stamp.year ++ '-' :: Text.paddedDigits 2 stamp.month ++
    '-' :: Text.paddedDigits 2 stamp.day

def clockText : List Char :=
  Text.paddedDigits 2 stamp.hour ++ ':' :: Text.paddedDigits 2 stamp.minute ++
    ':' :: Text.paddedDigits 2 stamp.second

/-- The offset, with a separator between its hours and its minutes. -/
def offsetText (separator : List Char) : List Char :=
  (if stamp.behind then '-' else '+') :: Text.paddedDigits 2 stamp.offsetHours ++ separator ++
    Text.paddedDigits 2 stamp.offsetMinutes

def localText : List Char :=
  stamp.dayText ++ 'T' :: stamp.clockText ++ fractionText stamp.fraction

def internetText : List Char :=
  stamp.localText ++ stamp.offsetText [':']

def weekdayNames : List String :=
  ["Sun", "Mon", "Tue", "Wed", "Thu", "Fri", "Sat"]

def monthNames : List String :=
  ["Jan", "Feb", "Mar", "Apr", "May", "Jun", "Jul", "Aug", "Sep", "Oct", "Nov", "Dec"]

def weekdayText : Option (Fin 7) → List Char
  | none => []
  | some weekday => (weekdayNames.getD weekday "").toList ++ [',', ' ']

def monthText : List Char :=
  (monthNames.getD (stamp.month - 1) "").toList

/-- The day of a mail header, where a day of one digit may be filled up with a zero or not. -/
def mailDay (padded : Bool) : List Char :=
  if padded then Text.paddedDigits 2 stamp.day else Text.digitsOfNumber stamp.day

/-- The text of a mail header, where a weekday may be written or not. -/
def mailText (weekday : Option (Fin 7)) (padded : Bool) : List Char :=
  weekdayText weekday ++ stamp.mailDay padded ++ ' ' :: stamp.monthText ++
    ' ' :: Text.paddedDigits 4 stamp.year ++ ' ' :: stamp.clockText ++ ' ' :: stamp.offsetText []

/-- The minutes of the offset. -/
def offset : ℤ :=
  if stamp.behind then -(stamp.offsetHours * 60 + stamp.offsetMinutes)
  else stamp.offsetHours * 60 + stamp.offsetMinutes

section Shapes

variable (rest : List Char)

theorem dayText_append :
    stamp.dayText ++ rest =
      Text.paddedDigits 4 stamp.year ++ '-' :: (Text.paddedDigits 2 stamp.month ++
        '-' :: (Text.paddedDigits 2 stamp.day ++ rest)) := by
  simp [dayText]

theorem clockText_append :
    stamp.clockText ++ rest =
      Text.paddedDigits 2 stamp.hour ++ ':' :: (Text.paddedDigits 2 stamp.minute ++
        ':' :: (Text.paddedDigits 2 stamp.second ++ rest)) := by
  simp [clockText]

theorem localText_append :
    stamp.localText ++ rest =
      stamp.dayText ++ 'T' :: (stamp.clockText ++ (fractionText stamp.fraction ++ rest)) := by
  simp [localText]

theorem mailText_eq (weekday : Option (Fin 7)) (padded : Bool) :
    stamp.mailText weekday padded =
      weekdayText weekday ++ (stamp.mailDay padded ++ ' ' :: (stamp.monthText ++
        ' ' :: (Text.paddedDigits 4 stamp.year ++ ' ' :: (stamp.clockText ++
          ' ' :: stamp.offsetText [])))) := by
  simp [mailText]

end Shapes

end Stamp

namespace DateText

/-! ## Steps of a scan -/

theorem findSome?_cons_eq_or {α β : Type} (f : α → Option β) (a : α) (l : List α) :
    (a :: l).findSome? f = (f a).or (l.findSome? f) := by
  rw [List.findSome?_cons]
  cases f a <;> rfl

/-- A step of a scan that succeeds hands its result to the steps that follow. -/
theorem scan_step {α β : Type} {step : Option α} {found : α} {next : α → Option β}
    {result : Option β} (hstep : step = some found) (hnext : next found = result) :
    step.bind next = result := by
  rw [hstep]
  exact hnext

theorem scan_stop {α β : Type} {step : Option α} {next : α → Option β} (hstep : step = none) :
    step.bind next = none := by
  rw [hstep]
  rfl

section Numbers

variable {least n : ℕ} (rest : List Char)

theorem number?_two (hn : n < 100) (hleast : least ≤ 2) :
    Text.number? least 2 (Text.paddedDigits 2 n ++ rest) = some (n, rest) :=
  Text.number?_paddedDigits (by omega) hn hleast rest

theorem number?_two_last (hn : n < 100) (hleast : least ≤ 2) :
    Text.number? least 2 (Text.paddedDigits 2 n) = some (n, []) := by
  have hread := number?_two [] hn hleast
  rwa [List.append_nil] at hread

theorem number?_four (hn : n < 10000) (hleast : least ≤ 4) :
    Text.number? least 4 (Text.paddedDigits 4 n ++ rest) = some (n, rest) :=
  Text.number?_paddedDigits (by omega) hn hleast rest

theorem exists_padded_cons (length n : ℕ) :
    ∃ c digits, Text.paddedDigits length n ++ rest = c :: digits ∧ c.isDigit = true :=
  Text.exists_digit_cons (Text.paddedDigits_ne_nil length n)
    (fun _ => Text.isDigit_of_mem_paddedDigits) rest

theorem trimStart_paddedDigits (length n : ℕ) :
    Text.trimStart (Text.paddedDigits length n ++ rest) = Text.paddedDigits length n ++ rest := by
  obtain ⟨c, digits, hdigits, hc⟩ := exists_padded_cons rest length n
  rw [hdigits, Text.trimStart_cons_of_not_blank (Text.isBlank_of_isDigit hc)]

theorem loose?_two (hn : n < 100) :
    loose? (Text.paddedDigits 2 n ++ rest) = some (n, rest) := by
  unfold loose?
  rw [trimStart_paddedDigits, number?_two rest hn (by omega)]

theorem year?_of_isDigit {c : Char} (hc : c.isDigit = true) :
    year? (c :: rest) = (Text.number? 1 4 (c :: rest)).map fun read => ((read.1 : ℤ), read.2) := by
  unfold year?
  rw [Text.trimStart_cons_of_not_blank (Text.isBlank_of_isDigit hc)]
  split
  · next hminus =>
    rw [(List.cons.inj hminus).1] at hc
    exact absurd hc (by decide)
  · next hplus =>
    rw [(List.cons.inj hplus).1] at hc
    exact absurd hc (by decide)
  · rfl

theorem year?_four (hn : n < 10000) :
    year? (Text.paddedDigits 4 n ++ rest) = some ((n : ℤ), rest) := by
  have hread : Text.number? 1 4 (Text.paddedDigits 4 n ++ rest) = some (n, rest) :=
    number?_four rest hn (by omega)
  obtain ⟨c, digits, hdigits, hc⟩ := exists_padded_cons rest 4 n
  rw [hdigits] at hread ⊢
  rw [year?_of_isDigit digits hc, hread]
  rfl

theorem expect?_cons (c : Char) : Text.expect? c (c :: rest) = some rest :=
  if_pos rfl

theorem expectAny?_cons {c : Char} {cs : List Char} (hc : c ∈ cs) :
    Text.expectAny? cs (c :: rest) = some rest :=
  if_pos hc

end Numbers

theorem fraction?_fractionText
    {digits rest : List Char} (hdigits : ∀ c ∈ digits, c.isDigit = true)
    (hrest : ∀ c ∈ rest.head?, c.isDigit = false ∧ c ≠ '.') :
    fraction? (fractionText digits ++ rest) = some (millisOfFraction digits, rest) := by
  unfold fractionText
  by_cases hnone : digits = []
  · rw [if_pos hnone, hnone, List.nil_append]
    unfold fraction?
    split
    · exact absurd rfl (hrest '.' rfl).2
    · rfl
  · have hrun := Text.digitRun_append hdigits fun c hc => (hrest c hc).1
    rw [if_neg hnone, List.cons_append, fraction?, hrun.1, hrun.2]
    simp [hnone]

end DateText

namespace Stamp

open DateText

variable (stamp : Stamp)

/-! ## Reading the parts of a stamp -/

theorem two_digits :
    stamp.month < 100 ∧ stamp.day < 100 ∧ stamp.hour < 100 ∧ stamp.minute < 100 ∧
      stamp.second < 100 ∧ stamp.offsetHours < 100 ∧ stamp.offsetMinutes < 100 := by
  have hmonth := stamp.month_mem
  have hday := stamp.day_lt
  have hhour := stamp.hour_lt
  have hminute := stamp.minute_lt
  have hsecond := stamp.second_le
  have hoffsetHours := stamp.offsetHours_lt
  have hoffsetMinutes := stamp.offsetMinutes_lt
  omega

theorem offset?_parts :
    offset? stamp.behind stamp.offsetHours stamp.offsetMinutes = some stamp.offset := by
  unfold offset? offset
  rw [if_pos ⟨stamp.offsetHours_lt, stamp.offsetMinutes_lt⟩]

theorem internetOffset?_offsetText :
    internetOffset? (stamp.offsetText [':']) = some (stamp.offset, []) := by
  have hoffset := stamp.offset?_parts
  obtain ⟨-, -, -, -, -, hhours, hminutes⟩ := stamp.two_digits
  unfold offsetText
  cases hbehind : stamp.behind with
  | true =>
      rw [hbehind] at hoffset
      simp (disch := omega) [internetOffset?, number?_two, number?_two_last, expect?_cons, hoffset]
  | false =>
      rw [hbehind] at hoffset
      simp (disch := omega) [internetOffset?, number?_two, number?_two_last, expect?_cons, hoffset]

theorem head?_offsetText {separator : List Char} {c : Char}
    (hc : c ∈ (stamp.offsetText separator).head?) : c.isDigit = false ∧ c ≠ '.' := by
  have hsign : (if stamp.behind then '-' else '+') = c := Option.some.inj hc
  rw [← hsign]
  split <;> decide

/-! ## Reading dates and local times -/

section Local

variable {rest : List Char}

theorem dayParts?_dayText (rest : List Char) :
    dayParts? (stamp.dayText ++ rest) =
      some ({ year := stamp.year, month := stamp.month, day := stamp.day }, rest) := by
  obtain ⟨hmonth, hday, -⟩ := stamp.two_digits
  rw [dayText_append]
  apply scan_step (year?_four _ stamp.year_lt)
  apply scan_step (expect?_cons _ '-')
  apply scan_step (loose?_two _ hmonth)
  apply scan_step (expect?_cons _ '-')
  exact scan_step (loose?_two _ hday) rfl

theorem day?_dayText_append (rest : List Char) :
    day? (stamp.dayText ++ rest) = (do
      guard rest.isEmpty
      epochMillisOfParts? stamp.year stamp.month stamp.day 0 0 0 0 0) :=
  scan_step (stamp.dayParts?_dayText rest) rfl

theorem day?_dayText :
    day? stamp.dayText = epochMillisOfParts? stamp.year stamp.month stamp.day 0 0 0 0 0 := by
  rw [← List.append_nil stamp.dayText, day?_dayText_append]
  rfl

theorem localTime?_dayText : localTime? stamp.dayText = none := by
  rw [← List.append_nil stamp.dayText]
  exact scan_step (stamp.dayParts?_dayText []) rfl

theorem localTime?_localText_append (hrest : ∀ c ∈ rest.head?, c.isDigit = false ∧ c ≠ '.') :
    localTime? (stamp.localText ++ rest) = (do
      guard rest.isEmpty
      epochMillisOfParts? stamp.year stamp.month stamp.day stamp.hour stamp.minute stamp.second
        (millisOfFraction stamp.fraction) 0) := by
  obtain ⟨-, -, hhour, hminute, hsecond, -, -⟩ := stamp.two_digits
  rw [localText_append, clockText_append]
  apply scan_step (stamp.dayParts?_dayText _)
  apply scan_step (expect?_cons _ 'T')
  apply scan_step (loose?_two _ hhour)
  apply scan_step (expect?_cons _ ':')
  apply scan_step (loose?_two _ hminute)
  apply scan_step (expect?_cons _ ':')
  apply scan_step (loose?_two _ hsecond)
  exact scan_step (fraction?_fractionText stamp.isDigit_fraction hrest) rfl

theorem localTime?_localText :
    localTime? stamp.localText =
      epochMillisOfParts? stamp.year stamp.month stamp.day stamp.hour stamp.minute stamp.second
        (millisOfFraction stamp.fraction) 0 := by
  rw [← List.append_nil stamp.localText, stamp.localTime?_localText_append (by simp)]
  rfl

end Local

/-! ## Reading times with an offset -/

section Internet

variable {rest : List Char}

theorem internet?_localText_append (hrest : ∀ c ∈ rest.head?, c.isDigit = false ∧ c ≠ '.') :
    internet? (stamp.localText ++ rest) = (do
      let (offset, rest) ← internetOffset? rest
      guard rest.isEmpty
      epochMillisOfParts? stamp.year stamp.month stamp.day stamp.hour stamp.minute stamp.second
        (millisOfFraction stamp.fraction) offset) := by
  obtain ⟨hmonth, hday, hhour, hminute, hsecond, -, -⟩ := stamp.two_digits
  rw [localText_append, dayText_append, clockText_append]
  apply scan_step (number?_four _ stamp.year_lt (Nat.le_refl _))
  apply scan_step (expect?_cons _ '-')
  apply scan_step (number?_two _ hmonth (Nat.le_refl _))
  apply scan_step (expect?_cons _ '-')
  apply scan_step (number?_two _ hday (Nat.le_refl _))
  apply scan_step (expectAny?_cons _ (by decide : 'T' ∈ ['T', 't', ' ']))
  apply scan_step (number?_two _ hhour (Nat.le_refl _))
  apply scan_step (expect?_cons _ ':')
  apply scan_step (number?_two _ hminute (Nat.le_refl _))
  apply scan_step (expect?_cons _ ':')
  apply scan_step (number?_two _ hsecond (Nat.le_refl _))
  exact scan_step (fraction?_fractionText stamp.isDigit_fraction hrest) rfl

theorem internet?_internetText :
    internet? stamp.internetText =
      epochMillisOfParts? stamp.year stamp.month stamp.day stamp.hour stamp.minute stamp.second
        (millisOfFraction stamp.fraction) stamp.offset :=
  (stamp.internet?_localText_append fun _ => stamp.head?_offsetText).trans
    (scan_step stamp.internetOffset?_offsetText rfl)

/-- An offset is required. -/
theorem internet?_localText : internet? stamp.localText = none := by
  rw [← List.append_nil stamp.localText, stamp.internet?_localText_append (by simp)]
  rfl

theorem internet?_dayText : internet? stamp.dayText = none := by
  obtain ⟨hmonth, hday, -⟩ := stamp.two_digits
  rw [← List.append_nil stamp.dayText, dayText_append]
  apply scan_step (number?_four _ stamp.year_lt (Nat.le_refl _))
  apply scan_step (expect?_cons _ '-')
  apply scan_step (number?_two _ hmonth (Nat.le_refl _))
  apply scan_step (expect?_cons _ '-')
  exact scan_step (number?_two _ hday (Nat.le_refl _)) rfl

end Internet

end Stamp

end FormCheck
