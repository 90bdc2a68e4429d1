import FormCheck.Proofs.DateTexts
import FormCheck.Value.Date

/-!
# The sole form of a date text

The forms of dates are loose in different ways: blanks may stand before numbers, years
may be short or have a sign, weekdays and seconds may be left out.  Still no text is
read in two forms.  What follows the day of a text, and what follows its time of day,
leaves one form in which it can be read, so the order in which the forms are tried does
not matter.
-/

namespace FormCheck

namespace Text

/-! ## Letters in front -/

/-- A character whose lower case is a letter is a letter. -/
theorem toNat_of_isLower_toLower {c : Char} (hc : c.toLower.isLower = true) :
    65 ≤ c.toNat ∧ c.toNat ≤ 122 := by
  unfold Char.toLower at hc
  split at hc
  · next hupper =>
    have hleast : 65 ≤ c.toNat := UInt32.le_iff_toNat_le.mp hupper.1
    have hlast : c.toNat ≤ 90 := UInt32.le_iff_toNat_le.mp hupper.2
    omega
  · have hrange := toNat_of_isLower hc
    omega

theorem exists_letter_of_word?
    {α : Type} {words : List (String × α)} {length : ℕ} {s : List Char} {found : α × List Char}
    (hwords : words.all (fun word => word.1.toList.head?.any Char.isLower) = true)
    (hread : word? words length s = some found) :
    ∃ c rest, s = c :: rest ∧ c.toLower.isLower = true := by
  unfold word? at hread
  rw [Option.map_eq_some_iff] at hread
  obtain ⟨meaning, hmeaning, -⟩ := hread
  obtain ⟨before, after, hsplit, -⟩ := List.lookup_eq_some_iff.mp hmeaning
  have hword := List.all_eq_true.mp hwords
    (String.ofList ((s.take length).map Char.toLower), meaning)
    (hsplit ▸ List.mem_append_right _ List.mem_cons_self)
  rw [String.toList_ofList, List.head?_map, List.head?_take] at hword
  cases s with
  | nil => simp at hword
  | cons c s =>
      refine ⟨c, s, rfl, ?_⟩
      split at hword
      · cases hword
      · exact hword

end Text

namespace DateText

/-! ## Steps that succeed -/

section Steps

variable {n : ℕ} {c : Char} {s rest : List Char}

theorem expect?_eq_some (hread : Text.expect? c s = some rest) : s = c :: rest := by
  cases s with
  | nil => cases hread
  | cons d s =>
      rw [Text.expect?] at hread
      split at hread
      · next hsame => rw [hsame, Option.some.inj hread]
      · cases hread

theorem expectAny?_eq_some {cs : List Char} (hread : Text.expectAny? cs s = some rest) :
    ∃ c, s = c :: rest := by
  cases s with
  | nil => cases hread
  | cons d s =>
      rw [Text.expectAny?] at hread
      split at hread
      · exact ⟨d, congrArg (d :: ·) (Option.some.inj hread)⟩
      · cases hread

theorem exists_blank_of_blanks? (hread : Text.blanks? s = some rest) :
    ∃ c more, s = c :: more ∧ Text.isBlank c = true := by
  cases s with
  | nil => cases hread
  | cons c s =>
      rw [Text.blanks?] at hread
      split at hread
      · next hblank => exact ⟨c, s, rfl, hblank⟩
      · cases hread

/-- Two digits are read alike where one would be enough and blanks could stand before them. -/
theorem loose?_of_number? (hread : Text.number? 2 2 s = some (n, rest)) :
    loose? s = some (n, rest) := by
  obtain ⟨digits, rfl, hdigits, hleast, hmost, rfl⟩ := Text.number?_eq_some hread
  have htwo : digits.length = 2 := by omega
  have hfirst := Text.not_blank_head_of_digits (List.ne_nil_of_length_pos (by omega)) hdigits rest
  unfold loose? Text.trimStart
  rw [Text.dropWhile_isBlank_eq_self hfirst, ← htwo]
  exact Text.number?_append hdigits (by omega) rest

theorem year?_of_number? (hread : Text.number? 4 4 s = some (n, rest)) :
    year? s = some ((n : ℤ), rest) := by
  obtain ⟨digits, rfl, hdigits, hleast, hmost, rfl⟩ := Text.number?_eq_some hread
  have hfour : digits.length = 4 := by omega
  have hloose : Text.number? 1 4 (digits ++ rest) = some (Text.numberOfDigits digits, rest) := by
    rw [← hfour]
    exact Text.number?_append hdigits (by omega) rest
  obtain ⟨c, more, hcons, hc⟩ :=
    Text.exists_digit_cons (List.ne_nil_of_length_pos (by omega)) hdigits rest
  rw [hcons] at hloose ⊢
  rw [year?_of_isDigit more hc, hloose]
  rfl

theorem year?_trimStart (s : List Char) : year? (Text.trimStart s) = year? s := by
  unfold year?
  rw [Text.trimStart_trimStart]

theorem year?_of_letter (hc : c.toLower.isLower = true) (s : List Char) :
    year? (c :: s) = none := by
  have hrange := Text.toNat_of_isLower_toLower hc
  have hblank : Text.isBlank c = false := by
    simp only [Text.isBlank, Bool.or_eq_false_iff, Bool.and_eq_false_iff, decide_eq_false_iff_not,
      beq_eq_false_iff_ne]
    omega
  have hdigit : c.isDigit = false := by
    rw [Bool.eq_false_iff]
    intro hdigit
    have hdigits := Text.toNat_of_isDigit hdigit
    omega
  unfold year?
  rw [Text.trimStart_cons_of_not_blank hblank]
  split
  · next hminus =>
    rw [(List.cons.inj hminus).1] at hrange
    exact absurd hrange (by decide)
  · next hplus =>
    rw [(List.cons.inj hplus).1] at hrange
    exact absurd hrange (by decide)
  · simp [Text.number?, Text.digitRun, hdigit]

/-- The day of a mail header is no year, since a blank follows it and no dash. -/
theorem dayParts?_of_mail_day
    (hday : Text.number? 1 2 (Text.trimStart s) = some (n, c :: rest))
    (hblank : Text.isBlank c = true) : dayParts? s = none := by
  obtain ⟨digits, hsplit, hdigits, hleast, hmost, -⟩ := Text.number?_eq_some hday
  have hend : ∀ d ∈ (c :: rest).head?, d.isDigit = false := by
    intro d hd
    rw [← Option.some.inj hd, Bool.eq_false_iff]
    intro hdigit
    rw [Text.isBlank_of_isDigit hdigit] at hblank
    cases hblank
  have hread : Text.number? 1 4 (digits ++ c :: rest) =
      some (Text.numberOfDigits digits, c :: rest) :=
    Text.number?_append_of_run hdigits hend hleast (by omega)
  have hyear : year? s = some ((Text.numberOfDigits digits : ℤ), c :: rest) := by
    obtain ⟨d, tail, hcons, hd⟩ :=
      Text.exists_digit_cons (List.ne_nil_of_length_pos hleast) hdigits (c :: rest)
    rw [← year?_trimStart, hsplit]
    rw [hcons] at hread ⊢
    rw [year?_of_isDigit tail hd, hread]
    rfl
  apply scan_step hyear
  apply scan_stop
  rw [Text.expect?, if_neg]
  rintro rfl
  cases hblank

end Steps

/-! ## What follows a day and a time of day -/

def afterDay? (s : List Char) : Option (List Char) :=
  (dayParts? s).map Prod.snd

def afterClock? (s : List Char) : Option (List Char) := do
  let (_, s) ← loose? s
  let s ← Text.expect? ':' s
  let (_, s) ← loose? s
  let s ← Text.expect? ':' s
  let (_, s) ← loose? s
  let (_, s) ← fraction? s
  return s

/-- The form in which a text is read, if it is read at all. -/
def soleForm (s : List Char) : Form :=
  match afterDay? s with
  | none => .mail
  | some [] => .day
  | some (_ :: rest) => if afterClock? rest = some [] then .localTime else .internet

section Forms

variable {s : List Char} {millis : ℤ} {form : Form}

theorem soleForm_of_mail? (hread : mail? s = some millis) : soleForm s = .mail := by
  obtain ⟨⟨weekday, afterWeekday⟩, hweekday, hread⟩ := Option.bind_eq_some_iff.mp hread
  obtain ⟨⟨day, afterNumber⟩, hday, hread⟩ := Option.bind_eq_some_iff.mp hread
  obtain ⟨month, hblanks, -⟩ := Option.bind_eq_some_iff.mp hread
  have hparts : dayParts? s = none := by
    unfold mailWeekday? at hweekday
    split at hweekday
    · cases hweekday
      obtain ⟨c, rest, rfl, hblank⟩ := exists_blank_of_blanks? hblanks
      exact dayParts?_of_mail_day hday hblank
    · next hword =>
      obtain ⟨c, rest, rfl, hc⟩ := Text.exists_letter_of_word? (by decide) hword
      exact scan_stop (year?_of_letter hc rest)
  rw [soleForm, afterDay?, hparts]
  rfl

theorem eq_nil_of_guard {rest : List Char} {checked : Unit}
    (hend : (guard (rest.isEmpty = true) : Option Unit) = some checked) : rest = [] := by
  cases rest with
  | nil => rfl
  | cons c rest => cases hend

theorem soleForm_of_day? (hread : day? s = some millis) : soleForm s = .day := by
  simp only [day?, bind, Option.bind_eq_some_iff, Prod.exists] at hread
  obtain ⟨parts, rest, hparts, _, hend, -⟩ := hread
  have hday : afterDay? s = some [] := by
    rw [afterDay?, hparts, eq_nil_of_guard hend]
    rfl
  rw [soleForm, hday]

theorem soleForm_of_localTime? (hread : localTime? s = some millis) :
    soleForm s = .localTime := by
  simp only [localTime?, bind, Option.bind_eq_some_iff, Prod.exists] at hread
  obtain ⟨parts, afterDay, hparts, clock, hmark, hour, afterHour, hhour, minutes, hminutes,
    minute, afterMinute, hminute, seconds, hseconds, second, afterSecond, hsecond,
    fraction, rest, hfraction, _, hend, -⟩ := hread
  have hday : afterDay? s = some ('T' :: clock) := by
    rw [afterDay?, hparts, Option.map_some, expect?_eq_some hmark]
  have hclock : afterClock? clock = some [] := by
    rw [eq_nil_of_guard hend] at hfraction
    apply scan_step hhour
    apply scan_step hminutes
    apply scan_step hminute
    apply scan_step hseconds
    apply scan_step hsecond
    exact scan_step hfraction rfl
  simp only [soleForm, hday, hclock, if_true]

/-- An internet date-time starts like a local one, but an offset follows its time of day. -/
theorem soleForm_of_internet? (hread : internet? s = some millis) : soleForm s = .internet := by
  simp only [internet?, bind, Option.bind_eq_some_iff, Prod.exists] at hread
  obtain ⟨year, afterYear, hyear, months, hmonths, month, afterMonth, hmonth, days, hdays,
    day, afterDay, hday, clock, hmark, hour, afterHour, hhour, minutes, hminutes,
    minute, afterMinute, hminute, seconds, hseconds, second, afterSecond, hsecond,
    fraction, rest, hfraction, offset, afterOffset, hoffset, -⟩ := hread
  obtain ⟨mark, rfl⟩ := expectAny?_eq_some hmark
  have hafterDay : afterDay? s = some (mark :: clock) := by
    have hparts : dayParts? s = some (⟨year, month, day⟩, mark :: clock) := by
      apply scan_step (year?_of_number? hyear)
      apply scan_step hmonths
      apply scan_step (loose?_of_number? hmonth)
      apply scan_step hdays
      exact scan_step (loose?_of_number? hday) rfl
    rw [afterDay?, hparts]
    rfl
  have hclock : afterClock? clock = some rest := by
    apply scan_step (loose?_of_number? hhour)
    apply scan_step hminutes
    apply scan_step (loose?_of_number? hminute)
    apply scan_step hseconds
    apply scan_step (loose?_of_number? hsecond)
    exact scan_step hfraction rfl
  have hrest : rest ≠ [] := by
    rintro rfl
    cases hoffset
  simp only [soleForm, hafterDay, hclock, Option.some.injEq, if_neg hrest]

/-! ## Trying the forms -/

theorem soleForm_of_read? (hread : (form.read? s).isSome = true) : soleForm s = form := by
  obtain ⟨millis, hmillis⟩ := Option.isSome_iff_exists.mp hread
  cases form with
  | internet => exact soleForm_of_internet? hmillis
  | mail => exact soleForm_of_mail? hmillis
  | localTime => exact soleForm_of_localTime? hmillis
  | day => exact soleForm_of_day? hmillis

theorem read?_of_ne_soleForm (hform : soleForm s ≠ form) : form.read? s = none := by
  rw [← Option.not_isSome_iff_eq_none]
  exact mt soleForm_of_read? hform

/-- The sole form decides, wherever it stands among the forms that are tried. -/
theorem findSome?_read? {order : List Form} (horder : soleForm s ∈ order) :
    order.findSome? (fun form => form.read? s) = (soleForm s).read? s := by
  cases hsole : (soleForm s).read? s with
  | none =>
      rw [List.findSome?_eq_none_iff]
      intro form hform
      by_cases hsame : soleForm s = form
      · rwa [← hsame]
      · exact read?_of_ne_soleForm hsame
  | some millis =>
      have hsome : (order.findSome? fun form => form.read? s).isSome = true :=
        List.findSome?_isSome_iff.mpr ⟨soleForm s, horder, by rw [hsole]; rfl⟩
      obtain ⟨found, hfound⟩ := Option.isSome_iff_exists.mp hsome
      obtain ⟨form, -, hform⟩ := List.exists_of_findSome?_eq_some hfound
      have hsame := soleForm_of_read? (Option.isSome_iff_exists.mpr ⟨found, hform⟩)
      rw [hfound, ← hform, ← hsame, hsole]

theorem Form.mem_all (form : Form) : form ∈ Form.all := by
  cases form <;> decide

end Forms

/-- No text is read in two forms, so the order in which the forms are tried does not matter. -/
theorem epochMillis?_in_any_order (s : String) :
    (∀ first second : Form, (first.read? (Text.trim s.toList)).isSome = true →
      (second.read? (Text.trim s.toList)).isSome = true → first = second) ∧
    ∀ order : List Form, order.Perm Form.all →
      order.findSome? (fun form => form.read? (Text.trim s.toList)) =
        (Value.text s).epochMillis? := by
  constructor
  · intro first second hfirst hsecond
    rw [← soleForm_of_read? hfirst, ← soleForm_of_read? hsecond]
  · intro order hperm
    have htried : (Value.text s).epochMillis? =
        (soleForm (Text.trim s.toList)).read? (Text.trim s.toList) :=
      findSome?_read? (Form.mem_all _)
    rw [htried]
    exact findSome?_read? (hperm.mem_iff.mpr (Form.mem_all _))

/-- A mail text without a weekday, with a short year and nested comments. -/
theorem comment_in_reverse_order :
    [Form.day, .localTime, .mail, .internet].Perm Form.all ∧
    (Form.mail.read? (Text.trim " 1 Jan 19 10:30 z (a (\\)) b)\t".toList)).isSome = true ∧
    (∀ form : Form,
      (form.read? (Text.trim " 1 Jan 19 10:30 z (a (\\)) b)\t".toList)).isSome = true →
      form = .mail) ∧
    [Form.day, .localTime, .mail, .internet].findSome?
      (fun form => form.read? (Text.trim " 1 Jan 19 10:30 z (a (\\)) b)\t".toList)) =
        some 1546338600000 := by
  have hperm : [Form.day, .localTime, .mail, .internet].Perm Form.all := by decide
  have hmail : (Form.mail.read? (Text.trim " 1 Jan 19 10:30 z (a (\\)) b)\t".toList)).isSome =
      true := by decide
  obtain ⟨hsole, horder⟩ := epochMillis?_in_any_order " 1 Jan 19 10:30 z (a (\\)) b)\t"
  refine ⟨hperm, hmail, fun form hform => hsole form .mail hform hmail, ?_⟩
  rw [horder _ hperm]
  decide

end DateText

end FormCheck
