import FormCheck.Proofs.DateTexts
import Mathlib.Data.Fintype.Basic
import Mathlib.Tactic.FinCases
import Mathlib.Tactic.IntervalCases

/-!
# Written mail dates

Mail dates name the month and may name the weekday.  They are read as the parts of
the stamp, where the weekday has to be the right one.  The other forms do not read
them, since they start with a name or with a number of two digits at most; for the same
reason they are not mistaken for the texts of the other forms.
-/

namespace FormCheck

namespace Stamp

open DateText

variable (stamp : Stamp)

/-! ## Reading a mail text -/

section Mail

variable (padded : Bool) (rest : List Char)

theorem isDigit_mailDay {c : Char} (hc : c ∈ stamp.mailDay padded) : c.isDigit = true := by
  cases padded with
  | true => exact Text.isDigit_of_mem_paddedDigits hc
  | false => exact Text.isDigit_of_mem_digitsOfNumber hc

theorem length_mailDay : 1 ≤ (stamp.mailDay padded).length ∧ (stamp.mailDay padded).length ≤ 2 := by
  cases padded with
  | true =>
      have hlength := Text.length_paddedDigits (by omega : 0 < 2) stamp.day_lt
      rw [mailDay, if_pos rfl, hlength]
      omega
  | false =>
      exact ⟨Nat.length_toDigits_pos,
        (Nat.length_toDigits_le_iff (by omega) (by omega)).mpr stamp.day_lt⟩

theorem numberOfDigits_mailDay : Text.numberOfDigits (stamp.mailDay padded) = stamp.day := by
  cases padded with
  | true => exact Text.numberOfDigits_paddedDigits 2 stamp.day
  | false => exact Text.numberOfDigits_digitsOfNumber stamp.day

theorem head?_space {c : Char} (hc : c ∈ (' ' :: rest).head?) : c.isDigit = false := by
  rw [← Option.some.inj hc]
  decide

theorem number?_mailDay {most : ℕ} (hmost : 2 ≤ most) :
    Text.number? 1 most (stamp.mailDay padded ++ ' ' :: rest) = some (stamp.day, ' ' :: rest) := by
  have hlength := stamp.length_mailDay padded
  rw [Text.number?_append_of_run (fun _ => stamp.isDigit_mailDay padded) (fun _ => head?_space rest)
    hlength.1 (hlength.2.trans hmost), numberOfDigits_mailDay]

theorem mailDay_ne_nil : stamp.mailDay padded ≠ [] :=
  List.ne_nil_of_length_pos (stamp.length_mailDay padded).1

theorem exists_mailDay_cons :
    ∃ c digits, stamp.mailDay padded ++ rest = c :: digits ∧ c.isDigit = true :=
  Text.exists_digit_cons (stamp.mailDay_ne_nil padded) (fun _ => stamp.isDigit_mailDay padded) rest

/-- No word of a list of names starts with a digit. -/
theorem word?_of_isDigit {α : Type} {words : List (String × α)} {length : ℕ} {c : Char}
    (hwords : words.all (fun word => !word.1.toList.head?.all Char.isDigit) = true)
    (hc : c.isDigit = true) : Text.word? words (length + 1) (c :: rest) = none := by
  have hnone : words.lookup
      (String.ofList (((c :: rest).take (length + 1)).map Char.toLower)) = none := by
    rw [List.lookup_eq_none_iff]
    intro word hword
    rw [bne_iff_ne]
    intro hsame
    have hletter := List.all_eq_true.mp hwords word hword
    rw [← hsame, String.toList_ofList, List.take_succ_cons, List.map_cons,
      Text.toLower_of_isDigit hc, List.head?_cons, Option.all_some, hc] at hletter
    cases hletter
  unfold Text.word?
  rw [hnone]
  rfl

theorem mailWeekday?_of_isDigit {c : Char} (hc : c.isDigit = true) :
    mailWeekday? (c :: rest) = some (none, c :: rest) := by
  unfold mailWeekday?
  rw [word?_of_isDigit rest (by decide) hc]

/-- A weekday and the blank after it are taken away, if they are there. -/
theorem mailWeekday?_weekdayText (weekday : Option (Fin 7)) {c : Char} (hc : c.isDigit = true) :
    ∃ left, mailWeekday? (weekdayText weekday ++ c :: rest) = some (weekday.map Fin.val, left) ∧
      Text.trimStart left = c :: rest := by
  have hdigits : Text.trimStart (c :: rest) = c :: rest :=
    Text.trimStart_cons_of_not_blank (Text.isBlank_of_isDigit hc)
  cases weekday with
  | none => exact ⟨c :: rest, mailWeekday?_of_isDigit rest hc, hdigits⟩
  | some weekday =>
      refine ⟨' ' :: c :: rest, ?_, (Text.trimStart_cons_of_blank (by decide)).trans hdigits⟩
      fin_cases weekday <;> rfl

theorem word?_monthText :
    Text.word? months 3 (stamp.monthText ++ rest) = some (stamp.month, rest) ∧
      Text.trimStart (stamp.monthText ++ rest) = stamp.monthText ++ rest := by
  obtain ⟨hfirst, hlast⟩ := stamp.month_mem
  unfold monthText
  generalize stamp.month = month at hfirst hlast
  interval_cases month <;> exact ⟨rfl, rfl⟩

theorem blanks?_space : Text.blanks? (' ' :: rest) = some (Text.trimStart rest) := rfl

theorem mailYear?_four :
    mailYear? (Text.paddedDigits 4 stamp.year ++ ' ' :: rest) =
      some (stamp.year, ' ' :: rest) := by
  have hdigits : ∀ c ∈ Text.paddedDigits 4 stamp.year, c.isDigit = true :=
    fun _ => Text.isDigit_of_mem_paddedDigits
  have hrun := Text.digitRun_append hdigits fun _ => head?_space rest
  have hlength := Text.length_paddedDigits (by omega : 0 < 4) stamp.year_lt
  unfold mailYear?
  simp only [hrun.1, hrun.2, hlength, Text.numberOfDigits_paddedDigits]
  rfl

theorem expect?_trimStart_colon :
    Text.expect? ':' (Text.trimStart (':' :: rest)) = some rest := rfl

theorem mailSecond?_two :
    mailSecond? (':' :: (Text.paddedDigits 2 stamp.second ++ ' ' :: rest)) =
      some (stamp.second, ' ' :: rest) :=
  number?_two _ stamp.two_digits.2.2.2.2.1 le_rfl

theorem mailOffset?_offsetText : mailOffset? (stamp.offsetText []) = some (stamp.offset, []) := by
  have hoffset := stamp.offset?_parts
  obtain ⟨-, -, -, -, -, hhours, hminutes⟩ := stamp.two_digits
  have hhoursRead := number?_two (Text.paddedDigits 2 stamp.offsetMinutes) hhours le_rfl
  have hminutesRead := number?_two_last hminutes le_rfl
  unfold offsetText
  rw [List.append_nil]
  cases hbehind : stamp.behind with
  | true =>
      rw [hbehind] at hoffset
      exact scan_step hhoursRead (scan_step hminutesRead (scan_step hoffset rfl))
  | false =>
      rw [hbehind] at hoffset
      exact scan_step hhoursRead (scan_step hminutesRead (scan_step hoffset rfl))

theorem trimStart_offsetText (separator : List Char) :
    Text.trimStart (stamp.offsetText separator) = stamp.offsetText separator := by
  apply Text.trimStart_cons_of_not_blank
  split <;> decide

/-- A mail text is read as its parts, among them the weekday, which has to be the right one. -/
theorem mail?_mailText (weekday : Option (Fin 7)) :
    mail? (stamp.mailText weekday padded) = (do
      let date ← Date.ofParts? stamp.year stamp.month stamp.day
      guard ((weekday.map Fin.val).all fun day => date.weekday = day)
      let moment ← Moment.ofParts? date stamp.hour stamp.minute stamp.second 0
      moment.epochMillis? stamp.offset) := by
  obtain ⟨-, -, hhour, hminute, -, -, -⟩ := stamp.two_digits
  rw [mailText_eq, clockText_append]
  -- The weekday ends before the first digit, whatever stands after the day.
  generalize htail : ' ' :: (stamp.monthText ++ _) = tail
  obtain ⟨c, digits, hday, hc⟩ := stamp.exists_mailDay_cons padded tail
  obtain ⟨left, hweekday, hleft⟩ := mailWeekday?_weekdayText digits weekday hc
  rw [hday]
  apply scan_step hweekday
  simp only [hleft]
  rw [← hday, ← htail]
  apply scan_step (stamp.number?_mailDay padded _ le_rfl)
  apply scan_step (blanks?_space _)
  rw [(stamp.word?_monthText _).2]
  apply scan_step (stamp.word?_monthText _).1
  apply scan_step (blanks?_space _)
  rw [trimStart_paddedDigits]
  apply scan_step (stamp.mailYear?_four _)
  apply scan_step (blanks?_space _)
  rw [trimStart_paddedDigits]
  apply scan_step (number?_two _ hhour le_rfl)
  apply scan_step (expect?_trimStart_colon _)
  rw [trimStart_paddedDigits]
  apply scan_step (number?_two _ hminute le_rfl)
  apply scan_step (stamp.mailSecond?_two _)
  apply scan_step (blanks?_space _)
  rw [trimStart_offsetText]
  exact scan_step stamp.mailOffset?_offsetText rfl

end Mail

/-! ## Telling mail texts from the others -/

/-- A day of the month has two digits at most. -/
theorem mail?_dayText_append (rest : List Char) : mail? (stamp.dayText ++ rest) = none := by
  have hlength := Text.length_paddedDigits (by omega : 0 < 4) stamp.year_lt
  have hdigits : ∀ c ∈ Text.paddedDigits 4 stamp.year, c.isDigit = true :=
    fun _ => Text.isDigit_of_mem_paddedDigits
  rw [dayText_append]
  generalize Text.paddedDigits 4 stamp.year = year at hlength hdigits
  match year, hlength with
  | [a, b, c, d], _ =>
      have ha : a.isDigit = true := hdigits a (by simp)
      have hc : c.isDigit = true := hdigits c (by simp)
      have hday : ∀ digit ∈ [a, b], digit.isDigit = true := by
        intro digit hdigit
        exact hdigits digit (List.mem_append_left [c, d] hdigit)
      -- The first two digits are taken as a day, and the third stands where a blank has to.
      apply scan_step (mailWeekday?_of_isDigit _ ha)
      simp only [Text.trimStart_cons_of_not_blank (Text.isBlank_of_isDigit ha)]
      apply scan_step (Text.number?_append hday (by simp) (c :: _))
      exact scan_stop (if_neg (by simp [Text.isBlank_of_isDigit hc]))

theorem mail?_localText_append (rest : List Char) : mail? (stamp.localText ++ rest) = none := by
  rw [localText_append]
  exact stamp.mail?_dayText_append _

theorem mail?_dayText : mail? stamp.dayText = none := by
  rw [← List.append_nil stamp.dayText]
  exact stamp.mail?_dayText_append []

theorem mail?_localText : mail? stamp.localText = none := by
  rw [← List.append_nil stamp.localText]
  exact stamp.mail?_localText_append []

theorem number?_of_short_run
    {least most : ℕ} {s : List Char} (hshort : (Text.digitRun s).length < least) :
    Text.number? least most s = none := by
  unfold Text.number?
  simp only
  rw [if_pos]
  rw [List.length_take]
  omega

/-- A mail text starts with two digits at most. -/
theorem length_digitRun_mailText (weekday : Option (Fin 7)) (padded : Bool) :
    (Text.digitRun (stamp.mailText weekday padded)).length ≤ 2 := by
  rw [mailText_eq]
  cases weekday with
  | none =>
      have hdigits : ∀ c ∈ stamp.mailDay padded, c.isDigit = true :=
        fun _ => stamp.isDigit_mailDay padded
      rw [weekdayText, List.nil_append, (Text.digitRun_append hdigits fun _ => head?_space _).1]
      exact (stamp.length_mailDay padded).2
  | some weekday => fin_cases weekday <;> exact Nat.zero_le 2

theorem internet?_mailText (weekday : Option (Fin 7)) (padded : Bool) :
    internet? (stamp.mailText weekday padded) = none := by
  have hshort := stamp.length_digitRun_mailText weekday padded
  exact scan_stop (number?_of_short_run (by omega))

theorem dayParts?_mailText (weekday : Option (Fin 7)) (padded : Bool) :
    dayParts? (stamp.mailText weekday padded) = none := by
  rw [mailText_eq]
  cases weekday with
  | none =>
      generalize stamp.monthText ++ _ = tail
      obtain ⟨c, digits, hday, hc⟩ := stamp.exists_mailDay_cons padded (' ' :: tail)
      have hread := stamp.number?_mailDay padded tail (by omega : 2 ≤ 4)
      have hyear : year? (stamp.mailDay padded ++ ' ' :: tail) =
          some ((stamp.day : ℤ), ' ' :: tail) := by
        rw [hday] at hread ⊢
        rw [year?_of_isDigit digits hc, hread]
        rfl
      exact scan_step hyear rfl
  | some weekday =>
      apply scan_stop
      fin_cases weekday <;> rfl

end Stamp

end FormCheck
