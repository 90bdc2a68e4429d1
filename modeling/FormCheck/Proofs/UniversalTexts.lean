import FormCheck.Proofs.DayAtMidnight

/-!
# Texts in universal time

A time of day without an offset is taken as universal time.  Its numbers have a fixed
width and may be out of range: with a `Z` behind it or without, the text is a date or it is
not, and it denotes the same instant.  The two texts are read in different forms, of which
one takes numbers of any width.
-/

namespace FormCheck

open DateText

/-! ## Written numbers -/

/-- Digits of a fixed number. -/
structure Digits (length : ℕ) where
  chars : List Char
  length_chars : chars.length = length
  isDigit_chars : ∀ c ∈ chars, c.isDigit = true

namespace Digits

/-- The digits of a text that holds nothing else. -/
def ofChars (chars : List Char) (hall : chars.all Char.isDigit = true) : Digits chars.length where
  chars := chars
  length_chars := rfl
  isDigit_chars := List.all_eq_true.mp hall

variable {length : ℕ} (digits : Digits length)

def number : ℕ :=
  Text.numberOfDigits digits.chars

theorem number?_append (rest : List Char) :
    Text.number? length length (digits.chars ++ rest) = some (digits.number, rest) := by
  have hread := Text.number?_append digits.isDigit_chars le_rfl rest
  rwa [digits.length_chars] at hread

theorem not_blank : ∀ c ∈ digits.chars, Text.isBlank c = false :=
  fun c hc => Text.isBlank_of_isDigit (digits.isDigit_chars c hc)

end Digits

/-- A date and a time of day as they are written, whether their numbers are in range or not. -/
structure DigitMoment where
  year : Digits 4
  month : Digits 2
  day : Digits 2
  hour : Digits 2
  minute : Digits 2
  second : Digits 2
  /-- The digits after the point of the seconds; without digits no point is written. -/
  fraction : List Char
  isDigit_fraction : ∀ c ∈ fraction, c.isDigit = true

namespace DigitMoment

variable (moment : DigitMoment)

def clockText : List Char :=
  moment.hour.chars ++ ':' :: (moment.minute.chars ++ ':' :: (moment.second.chars ++
    fractionText moment.fraction))

def text : List Char :=
  moment.year.chars ++ '-' :: (moment.month.chars ++ '-' :: (moment.day.chars ++
    'T' :: moment.clockText))

/-- The milliseconds in universal time, if the numbers are in range. -/
def epochMillis? : Option ℤ :=
  epochMillisOfParts? moment.year.number moment.month.number moment.day.number moment.hour.number
    moment.minute.number moment.second.number (millisOfFraction moment.fraction) 0

/-! ## Reading the numbers -/

section Reading

variable (rest : List Char)

theorem dayParts?_text_append :
    dayParts? (moment.text ++ rest) =
      some (⟨moment.year.number, moment.month.number, moment.day.number⟩,
        'T' :: (moment.clockText ++ rest)) := by
  unfold text
  simp only [List.append_assoc, List.cons_append]
  apply scan_step (year?_of_number? (moment.year.number?_append _))
  apply scan_step (expect?_cons _ '-')
  apply scan_step (loose?_of_number? (moment.month.number?_append _))
  apply scan_step (expect?_cons _ '-')
  exact scan_step (loose?_of_number? (moment.day.number?_append _)) rfl

theorem afterClock?_clockText_append (hrest : ∀ c ∈ rest.head?, c.isDigit = false ∧ c ≠ '.') :
    afterClock? (moment.clockText ++ rest) = some rest := by
  unfold clockText
  simp only [List.append_assoc, List.cons_append]
  apply scan_step (loose?_of_number? (moment.hour.number?_append _))
  apply scan_step (expect?_cons _ ':')
  apply scan_step (loose?_of_number? (moment.minute.number?_append _))
  apply scan_step (expect?_cons _ ':')
  apply scan_step (loose?_of_number? (moment.second.number?_append _))
  exact scan_step (fraction?_fractionText moment.isDigit_fraction hrest) rfl

theorem soleForm_text_append (hrest : ∀ c ∈ rest.head?, c.isDigit = false ∧ c ≠ '.') :
    soleForm (moment.text ++ rest) = if rest = [] then .localTime else .internet := by
  have hday : afterDay? (moment.text ++ rest) = some ('T' :: (moment.clockText ++ rest)) := by
    rw [afterDay?, moment.dayParts?_text_append]
    rfl
  simp only [soleForm, hday, moment.afterClock?_clockText_append rest hrest, Option.some.injEq]

theorem localTime?_text : localTime? moment.text = moment.epochMillis? := by
  rw [← List.append_nil moment.text]
  apply scan_step (moment.dayParts?_text_append [])
  unfold clockText
  simp only [List.append_assoc, List.cons_append]
  apply scan_step (expect?_cons _ 'T')
  apply scan_step (loose?_of_number? (moment.hour.number?_append _))
  apply scan_step (expect?_cons _ ':')
  apply scan_step (loose?_of_number? (moment.minute.number?_append _))
  apply scan_step (expect?_cons _ ':')
  apply scan_step (loose?_of_number? (moment.second.number?_append _))
  exact scan_step (fraction?_fractionText moment.isDigit_fraction (by simp)) rfl

theorem internet?_text_universal :
    internet? (moment.text ++ ['Z']) = moment.epochMillis? := by
  unfold text clockText
  simp only [List.append_assoc, List.cons_append]
  apply scan_step (moment.year.number?_append _)
  apply scan_step (expect?_cons _ '-')
  apply scan_step (moment.month.number?_append _)
  apply scan_step (expect?_cons _ '-')
  apply scan_step (moment.day.number?_append _)
  apply scan_step (expectAny?_cons _ (by decide : 'T' ∈ ['T', 't', ' ']))
  apply scan_step (moment.hour.number?_append _)
  apply scan_step (expect?_cons _ ':')
  apply scan_step (moment.minute.number?_append _)
  apply scan_step (expect?_cons _ ':')
  apply scan_step (moment.second.number?_append _)
  exact scan_step (fraction?_fractionText moment.isDigit_fraction (by simp)) rfl

end Reading

/-! ## The offset zero -/

theorem not_blank : ∀ c ∈ moment.text, Text.isBlank c = false := by
  have hfraction : ∀ c ∈ fractionText moment.fraction, Text.isBlank c = false := by
    unfold fractionText
    split
    · simp
    · rw [List.forall_mem_cons]
      exact ⟨by decide, fun c hc => Text.isBlank_of_isDigit (moment.isDigit_fraction c hc)⟩
  unfold text clockText
  simp only [List.forall_mem_append, List.forall_mem_cons]
  exact ⟨moment.year.not_blank, by decide, moment.month.not_blank, by decide,
    moment.day.not_blank, by decide, moment.hour.not_blank, by decide, moment.minute.not_blank,
    by decide, moment.second.not_blank, hfraction⟩

theorem trim_text_append (rest : List Char) (hrest : ∀ c ∈ rest, Text.isBlank c = false) :
    Text.trim (moment.text ++ rest) = moment.text ++ rest := by
  have hall := List.forall_mem_append.mpr ⟨moment.not_blank, hrest⟩
  exact Text.trim_eq_self (fun c hc => hall c (List.mem_of_mem_head? hc))
    fun c hc => hall c (List.mem_of_mem_getLast? hc)

theorem epochMillis?_text :
    (Value.text (String.ofList moment.text)).epochMillis? = moment.epochMillis? := by
  have htrim := moment.trim_text_append [] (by simp)
  have hform := moment.soleForm_text_append [] (by simp)
  rw [List.append_nil] at htrim hform
  rw [Value.epochMillis?_eq_read?, String.toList_ofList, htrim, hform]
  exact moment.localTime?_text

theorem epochMillis?_text_universal :
    (Value.text (String.ofList moment.text ++ "Z")).epochMillis? = moment.epochMillis? := by
  have htrim := moment.trim_text_append ['Z'] (by simp [Text.isBlank])
  have hform := moment.soleForm_text_append ['Z'] (by simp)
  rw [Value.epochMillis?_eq_read?, String.toList_append, String.toList_ofList]
  change (soleForm (Text.trim (moment.text ++ ['Z']))).read? (Text.trim (moment.text ++ ['Z'])) = _
  rw [htrim, hform]
  exact moment.internet?_text_universal

end DigitMoment

/-- A day and the midnight at its start agree, and so do a time of day without an offset and the
same time of day in universal time. -/
theorem universal_texts_agree :
    (∀ day : String, (∀ c ∈ day.toList.getLast?, Text.isBlank c = false) →
      ((Value.text (day ++ "T00:00:00")).epochMillis?.isSome = true ↔
        (Form.day.read? (Text.trim day.toList)).isSome = true) ∧
      ∀ millis, Form.day.read? (Text.trim day.toList) = some millis →
        (Value.text day).epochMillis? = some millis ∧
        (Value.text (day ++ "T00:00:00")).epochMillis? = some millis) ∧
    ∀ moment : DigitMoment,
      (Value.text (String.ofList moment.text)).epochMillis? =
        (Value.text (String.ofList moment.text ++ "Z")).epochMillis? := by
  constructor
  · intro day hlast
    have hmidnight := Value.epochMillis?_midnight hlast
    refine ⟨by rw [hmidnight], fun millis hread => ⟨?_, hmidnight.trans hread⟩⟩
    rw [Value.epochMillis?_eq_read?, soleForm_of_day? hread]
    exact hread
  · intro moment
    rw [moment.epochMillis?_text, moment.epochMillis?_text_universal]

/-- A leap second that ends a month. -/
def lastSecond : DigitMoment where
  year := .ofChars ['2', '0', '1', '5'] rfl
  month := .ofChars ['0', '6'] rfl
  day := .ofChars ['3', '0'] rfl
  hour := .ofChars ['2', '3'] rfl
  minute := .ofChars ['5', '9'] rfl
  second := .ofChars ['6', '0'] rfl
  fraction := ['2', '5']
  isDigit_fraction := List.all_eq_true.mp rfl

/-- A day with a sign, short numbers and blanks in it. -/
theorem signed_day_at_midnight :
    (∀ c ∈ "\t+2019- 2-9".toList.getLast?, Text.isBlank c = false) ∧
    (Value.text "\t+2019- 2-9").epochMillis? = some 1549670400000 ∧
    (Value.text ("\t+2019- 2-9" ++ "T00:00:00")).epochMillis? = some 1549670400000 ∧
    (Value.text "2015-06-30T23:59:60.25Z").epochMillis? =
      (Value.text "2015-06-30T23:59:60.25").epochMillis? := by
  have hlast : ∀ c ∈ "\t+2019- 2-9".toList.getLast?, Text.isBlank c = false := by
    intro c hc
    rw [← Option.some.inj hc]
    decide
  have hread : Form.day.read? (Text.trim "\t+2019- 2-9".toList) = some 1549670400000 := by decide
  obtain ⟨hdays, hmoments⟩ := universal_texts_agree
  obtain ⟨hday, hmidnight⟩ := (hdays "\t+2019- 2-9" hlast).2 _ hread
  exact ⟨hlast, hday, hmidnight, (hmoments lastSecond).symm⟩

end FormCheck
