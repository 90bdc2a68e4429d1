import FormCheck.Proofs.DateForms

/-!
# Offsets at the end

The forms with an offset read a text from left to right, so what a step leaves is an end of
the text, and so is the part in which the offset is found.  After the offset nothing
follows in an internet date-time, and nothing but comments in a mail date-time.  Hence a
text that ends in a full hour, written to the second, is not read in either of these forms.
-/

namespace FormCheck

/-! ## What a step leaves -/

namespace Text

variable {s rest : List Char}

theorem trimStart_suffix (s : List Char) : trimStart s <:+ s :=
  List.dropWhile_suffix isBlank

theorem number?_suffix {least most n : ℕ} (hread : number? least most s = some (n, rest)) :
    rest <:+ s := by
  obtain ⟨digits, rfl, -⟩ := number?_eq_some hread
  exact List.suffix_append digits rest

theorem expect?_suffix {c : Char} (hread : expect? c s = some rest) : rest <:+ s := by
  rw [DateText.expect?_eq_some hread]
  exact List.suffix_cons c rest

theorem expectAny?_suffix {cs : List Char} (hread : expectAny? cs s = some rest) : rest <:+ s := by
  obtain ⟨c, rfl⟩ := DateText.expectAny?_eq_some hread
  exact List.suffix_cons c rest

theorem blanks?_suffix (hread : blanks? s = some rest) : rest <:+ s := by
  cases s with
  | nil => cases hread
  | cons c s =>
      rw [blanks?] at hread
      split at hread
      · rw [← Option.some.inj hread]
        exact (trimStart_suffix s).trans (List.suffix_cons c s)
      · cases hread

theorem word?_suffix {α : Type} {words : List (String × α)} {length : ℕ} {meaning : α}
    (hread : word? words length s = some (meaning, rest)) : rest <:+ s := by
  unfold word? at hread
  obtain ⟨_, -, hfound⟩ := Option.map_eq_some_iff.mp hread
  rw [← (Prod.mk.inj hfound).2]
  exact List.drop_suffix length s

end Text

namespace DateText

variable {s rest : List Char} {millis : ℤ}

theorem fraction?_suffix {n : ℕ} (hread : fraction? s = some (n, rest)) : rest <:+ s := by
  unfold fraction? at hread
  split at hread
  · next digits =>
    simp only at hread
    split at hread
    · cases hread
    · cases hread
      exact (List.dropWhile_suffix _).trans (List.suffix_cons '.' digits)
  · cases hread
    exact List.suffix_rfl

theorem mailWeekday?_suffix {weekday : Option ℕ} (hread : mailWeekday? s = some (weekday, rest)) :
    rest <:+ s := by
  unfold mailWeekday? at hread
  split at hread
  · cases hread
    exact List.suffix_rfl
  · next weekday left hword =>
    obtain ⟨_, hcomma, hfound⟩ := Option.map_eq_some_iff.mp hread
    rw [← (Prod.mk.inj hfound).2]
    exact (Text.expect?_suffix hcomma).trans (Text.word?_suffix hword)

theorem mailYear?_suffix {year : ℕ} (hread : mailYear? s = some (year, rest)) : rest <:+ s := by
  unfold mailYear? at hread
  simp only at hread
  split at hread
  · cases hread
  · rw [← (Prod.mk.inj (Option.some.inj hread)).2]
    exact List.dropWhile_suffix _

theorem mailSecond?_suffix {second : ℕ} (hread : mailSecond? s = some (second, rest)) :
    rest <:+ s := by
  unfold mailSecond? at hread
  split at hread
  · next left hcolon =>
    exact (Text.number?_suffix hread).trans
      ((Text.expect?_suffix hcolon).trans (Text.trimStart_suffix s))
  · cases hread
    exact List.suffix_rfl

/-! ## The place of the offset -/

theorem exists_offset_of_internet? (hread : internet? s = some millis) :
    ∃ text offset, text <:+ s ∧ internetOffset? text = some (offset, []) := by
  simp only [internet?, bind, Option.bind_eq_some_iff, Prod.exists] at hread
  obtain ⟨_, _, hyear, _, hmonths, _, _, hmonth, _, hdays, _, _, hday, _, hmark, _, _, hhour,
    _, hminutes, _, _, hminute, _, hseconds, _, _, hsecond, _, text, hfraction, offset, rest,
    hoffset, _, hend, -⟩ := hread
  refine ⟨text, offset, ?_, eq_nil_of_guard hend ▸ hoffset⟩
  exact (fraction?_suffix hfraction).trans <| (Text.number?_suffix hsecond).trans <|
    (Text.expect?_suffix hseconds).trans <| (Text.number?_suffix hminute).trans <|
    (Text.expect?_suffix hminutes).trans <| (Text.number?_suffix hhour).trans <|
    (Text.expectAny?_suffix hmark).trans <| (Text.number?_suffix hday).trans <|
    (Text.expect?_suffix hdays).trans <| (Text.number?_suffix hmonth).trans <|
    (Text.expect?_suffix hmonths).trans <| Text.number?_suffix hyear

theorem exists_offset_of_mail? (hread : mail? s = some millis) :
    ∃ text offset rest, text <:+ s ∧ mailOffset? text = some (offset, rest) ∧
      isComments rest.length rest = true := by
  obtain ⟨⟨_, _⟩, hweekday, hread⟩ := Option.bind_eq_some_iff.mp hread
  obtain ⟨⟨_, _⟩, hday, hread⟩ := Option.bind_eq_some_iff.mp hread
  obtain ⟨_, hmonths, hread⟩ := Option.bind_eq_some_iff.mp hread
  obtain ⟨⟨_, _⟩, hmonth, hread⟩ := Option.bind_eq_some_iff.mp hread
  obtain ⟨_, hyears, hread⟩ := Option.bind_eq_some_iff.mp hread
  obtain ⟨⟨_, _⟩, hyear, hread⟩ := Option.bind_eq_some_iff.mp hread
  obtain ⟨_, hhours, hread⟩ := Option.bind_eq_some_iff.mp hread
  obtain ⟨⟨_, _⟩, hhour, hread⟩ := Option.bind_eq_some_iff.mp hread
  obtain ⟨_, hminutes, hread⟩ := Option.bind_eq_some_iff.mp hread
  obtain ⟨⟨_, _⟩, hminute, hread⟩ := Option.bind_eq_some_iff.mp hread
  obtain ⟨⟨_, _⟩, hsecond, hread⟩ := Option.bind_eq_some_iff.mp hread
  obtain ⟨text, hoffsets, hread⟩ := Option.bind_eq_some_iff.mp hread
  obtain ⟨⟨offset, rest⟩, hoffset, hread⟩ := Option.bind_eq_some_iff.mp hread
  obtain ⟨_, hcomments, -⟩ := Option.bind_eq_some_iff.mp hread
  refine ⟨text, offset, rest, ?_, hoffset, (Option.guard_eq_some' _).mp hcomments⟩
  exact (Text.blanks?_suffix hoffsets).trans <| (mailSecond?_suffix hsecond).trans <|
    (Text.number?_suffix hminute).trans <| (Text.trimStart_suffix _).trans <|
    (Text.expect?_suffix hminutes).trans <| (Text.trimStart_suffix _).trans <|
    (Text.number?_suffix hhour).trans <| (Text.blanks?_suffix hhours).trans <|
    (mailYear?_suffix hyear).trans <| (Text.blanks?_suffix hyears).trans <|
    (Text.word?_suffix hmonth).trans <| (Text.blanks?_suffix hmonths).trans <|
    (Text.number?_suffix hday).trans <| (Text.trimStart_suffix _).trans <|
    mailWeekday?_suffix hweekday

/-! ## Comments at the end -/

theorem closeComment?_suffix {depth : ℕ} (hclose : closeComment? depth s = some rest) :
    ')' :: rest <:+ s := by
  fun_induction closeComment? depth s with
  | case1 => cases hclose
  | case2 => cases hclose
  | case3 depth c s ih =>
      exact (ih hclose).trans ((List.suffix_cons c s).trans (List.suffix_cons '\\' (c :: s)))
  | case4 depth s ih => exact (ih hclose).trans (List.suffix_cons '(' s)
  | case5 s =>
      cases hclose
      exact List.suffix_rfl
  | case6 depth s ih => exact (ih hclose).trans (List.suffix_cons ')' s)
  | case7 depth c s _ _ _ _ _ ih => exact (ih hclose).trans (List.suffix_cons c s)

theorem comment?_suffix (hcomment : comment? s = some rest) : ')' :: rest <:+ s := by
  obtain ⟨inside, hopen, hclose⟩ := Option.bind_eq_some_iff.mp hcomment
  exact (closeComment?_suffix hclose).trans
    ((Text.expect?_suffix hopen).trans (Text.trimStart_suffix s))

theorem getLast?_of_suffix {last : List Char} (hend : last <:+ s) (hne : last ≠ []) :
    s.getLast? = last.getLast? := by
  obtain ⟨front, rfl⟩ := hend
  exact List.getLast?_append_of_ne_nil front hne

/-- Comments end in a parenthesis. -/
theorem getLast?_of_isComments {fuel : ℕ} (hcomments : isComments fuel s = true) (hne : s ≠ []) :
    s.getLast? = some ')' := by
  fun_induction isComments fuel s with
  | case1 => exact absurd rfl hne
  | case2 => cases hcomments
  | case3 fuel s _ rest hcomment ih =>
      have hclose := comment?_suffix hcomment
      by_cases hlast : rest = []
      · rw [getLast?_of_suffix hclose (List.cons_ne_nil _ _), hlast]
        rfl
      · rw [getLast?_of_suffix ((List.suffix_cons ')' rest).trans hclose) hlast]
        exact ih hcomments hlast
  | case4 => cases hcomments

/-! ## Offsets at the end -/

theorem length_of_number? {length n : ℕ} (hread : Text.number? length length s = some (n, rest)) :
    s.length = length + rest.length := by
  obtain ⟨digits, rfl, -, hleast, hmost, -⟩ := Text.number?_eq_some hread
  rw [List.length_append]
  omega

/-- An internet offset is a single letter, or a sign and five characters. -/
theorem internetOffset?_eq_some {offset : ℤ} (hread : internetOffset? s = some (offset, [])) :
    ∃ c more, s = c :: more ∧
      ((c ≠ '0' ∧ more = []) ∨ (c ≠ ':' ∧ more.length = 5)) := by
  cases s with
  | nil => cases hread
  | cons c more =>
      refine ⟨c, more, rfl, ?_⟩
      rw [internetOffset?] at hread
      split at hread
      · next hletter =>
        refine .inl ⟨?_, (Prod.mk.inj (Option.some.inj hread)).2⟩
        rintro rfl
        exact absurd hletter (by decide)
      · split at hread
        · next hsign =>
          simp only [bind, Option.bind_eq_some_iff, Prod.exists] at hread
          obtain ⟨_, afterHours, hhours, minutes, hcolon, _, left, hminutes, _, -, hrest⟩ := hread
          have hend : left = [] := (Prod.mk.inj (Option.some.inj hrest)).2
          have hlength := length_of_number? hhours
          have hminutesLength := length_of_number? hminutes
          rw [expect?_eq_some hcolon, List.length_cons, hminutesLength, hend] at hlength
          refine .inr ⟨?_, hlength⟩
          rintro rfl
          exact absurd hsign (by decide)
        · cases hread

/-- A mail offset is letters, or a sign and four digits. -/
theorem mailOffset?_eq_some {offset : ℤ} (hread : mailOffset? s = some (offset, rest)) :
    (∃ letters, s = letters ++ rest ∧ letters ≠ [] ∧ ∀ c ∈ letters, Text.isLetter c = true) ∨
      ∃ c digits, s = c :: (digits ++ rest) ∧ digits.length = 4 ∧
        ∀ d ∈ digits, d.isDigit = true := by
  unfold mailOffset? at hread
  simp only at hread
  split at hread
  · right
    cases s with
    | nil => cases hread
    | cons c more =>
        simp only at hread
        split at hread
        · simp only [bind, Option.bind_eq_some_iff, Prod.exists] at hread
          obtain ⟨_, afterHours, hhours, _, left, hminutes, _, -, hrest⟩ := hread
          obtain ⟨hours, rfl, hhour, hleast, hmost, -⟩ := Text.number?_eq_some hhours
          obtain ⟨minutes, rfl, hminute, hleastMinute, hmostMinute, -⟩ :=
            Text.number?_eq_some hminutes
          refine ⟨c, hours ++ minutes, ?_, ?_, List.forall_mem_append.mpr ⟨hhour, hminute⟩⟩
          · rw [← (Prod.mk.inj (Option.some.inj hrest)).2, List.append_assoc]
          · rw [List.length_append]
            omega
        · cases hread
  · next hletters =>
    left
    obtain ⟨_, -, hrest⟩ := Option.map_eq_some_iff.mp hread
    refine ⟨s.takeWhile Text.isLetter, ?_, ?_, ?_⟩
    · rw [← (Prod.mk.inj hrest).2, List.takeWhile_append_dropWhile]
    · rwa [List.isEmpty_iff] at hletters
    · exact fun c hc => List.all_eq_true.mp List.all_takeWhile c hc

theorem mailOffset?_suffix {offset : ℤ} (hread : mailOffset? s = some (offset, rest)) :
    rest <:+ s := by
  obtain ⟨letters, rfl, -⟩ | ⟨c, digits, rfl, -⟩ := mailOffset?_eq_some hread
  · exact List.suffix_append letters rest
  · exact (List.suffix_append digits rest).trans (List.suffix_cons c _)

/-! ## Texts that end in a time of day -/

/-- The end of a text whose time of day is on the hour. -/
def hourMark : List Char :=
  [':', '0', '0', ':', '0', '0']

theorem internet?_of_hourMark (hend : hourMark <:+ s) : internet? s = none := by
  by_contra hsome
  obtain ⟨millis, hread⟩ := Option.ne_none_iff_exists'.mp hsome
  obtain ⟨text, offset, htext, hoffset⟩ := exists_offset_of_internet? hread
  obtain ⟨c, more, rfl, ⟨hc, rfl⟩ | ⟨hc, hlength⟩⟩ := internetOffset?_eq_some hoffset
  · have hlast := getLast?_of_suffix htext (List.cons_ne_nil c [])
    rw [getLast?_of_suffix hend (List.cons_ne_nil _ _)] at hlast
    exact hc (Option.some.inj hlast).symm
  · have hmark : hourMark = c :: more :=
      (List.suffix_of_suffix_length_le hend htext (by simp [hourMark, hlength])).eq_of_length
        (by simp [hourMark, hlength])
    exact hc (List.cons.inj hmark).1.symm

theorem mail?_of_hourMark (hend : hourMark <:+ s) : mail? s = none := by
  by_contra hsome
  obtain ⟨millis, hread⟩ := Option.ne_none_iff_exists'.mp hsome
  obtain ⟨text, offset, rest, htext, hoffset, hcomments⟩ := exists_offset_of_mail? hread
  have hlast : s.getLast? = some '0' := getLast?_of_suffix hend (List.cons_ne_nil _ _)
  obtain rfl : rest = [] := by
    by_contra hne
    have hclose := getLast?_of_isComments hcomments hne
    rw [← getLast?_of_suffix ((mailOffset?_suffix hoffset).trans htext) hne, hlast] at hclose
    exact absurd (Option.some.inj hclose) (by decide)
  obtain ⟨letters, rfl, hne, hletters⟩ | ⟨c, digits, rfl, hlength, hdigits⟩ :=
    mailOffset?_eq_some hoffset
  · rw [List.append_nil] at htext
    rw [getLast?_of_suffix htext hne] at hlast
    exact absurd (hletters '0' (List.mem_of_getLast? hlast)) (by decide)
  · rw [List.append_nil] at htext
    have hdigitsEnd : digits <:+ s := (List.suffix_cons c digits).trans htext
    have hclock : [':', '0', '0'] <:+ s := (List.suffix_append [':', '0', '0'] _).trans hend
    have hseconds : [':', '0', '0'] <:+ digits :=
      List.suffix_of_suffix_length_le hclock hdigitsEnd (by simp [hlength])
    exact absurd (hdigits ':' (hseconds.mem List.mem_cons_self)) (by decide)

end DateText

end FormCheck
