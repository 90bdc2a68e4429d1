import FormCheck.Proofs.OffsetEnds

/-!
# Days and their midnights

A date alone stands for its midnight in universal time, so it agrees with the text in which
that midnight is written behind it: both are dates or neither is, and they denote the same
instant.  A date alone may have blanks, a sign and short numbers, but no step of a scan goes
past a `T` that it does not ask for, so what is read in front of the `T` is read alike when
nothing follows.
-/

namespace FormCheck

/-! ## Steps before a mark -/

/-- What a step has read, when a mark and what follows it stand behind what the step leaves. -/
def handOn {α : Type} (rest : List Char) (read : α × List Char) : α × List Char :=
  (read.1, read.2 ++ 'T' :: rest)

namespace Text

section Mark

variable (s rest : List Char)

theorem digitRun_mark : digitRun (s ++ 'T' :: rest) = digitRun s := by
  induction s with
  | nil => rfl
  | cons c s ih =>
      unfold digitRun at ih ⊢
      rw [List.cons_append, List.takeWhile_cons, List.takeWhile_cons, ih]

/-- What is dropped up to a character in front of a mark does not depend on what follows. -/
theorem dropWhile_mark {p : Char → Bool} (hmark : p 'T' = false) :
    (s ++ 'T' :: rest).dropWhile p = s.dropWhile p ++ 'T' :: rest := by
  induction s with
  | nil => exact List.dropWhile_cons_of_neg (by simp [hmark])
  | cons c s ih =>
      rw [List.cons_append, List.dropWhile_cons, List.dropWhile_cons, ih]
      split <;> rfl

theorem trimStart_mark : trimStart (s ++ 'T' :: rest) = trimStart s ++ 'T' :: rest :=
  dropWhile_mark s rest (by decide)

theorem afterDigits_mark : afterDigits (s ++ 'T' :: rest) = afterDigits s ++ 'T' :: rest :=
  dropWhile_mark s rest (by decide)

theorem number?_mark (least most : ℕ) :
    number? least most (s ++ 'T' :: rest) = (number? least most s).map (handOn rest) := by
  have hlength : ((digitRun s).take most).length ≤ s.length :=
    ((List.take_prefix most _).trans (List.takeWhile_prefix _)).length_le
  unfold number?
  simp only [digitRun_mark]
  split
  · rfl
  · rw [List.drop_append_of_le_length hlength]
    rfl

theorem expect?_mark {c : Char} (hc : c ≠ 'T') :
    expect? c (s ++ 'T' :: rest) = (expect? c s).map (· ++ 'T' :: rest) := by
  cases s with
  | nil => exact if_neg hc.symm
  | cons d s =>
      rw [List.cons_append, expect?, expect?]
      split <;> rfl

end Mark

end Text

namespace DateText

section Mark

variable (s rest : List Char)

theorem loose?_mark : loose? (s ++ 'T' :: rest) = (loose? s).map (handOn rest) := by
  unfold loose?
  rw [Text.trimStart_mark, Text.number?_mark]

theorem unlimited?_mark : unlimited? (s ++ 'T' :: rest) = (unlimited? s).map (handOn rest) := by
  unfold unlimited?
  rw [Text.digitRun_mark, Text.afterDigits_mark]
  simp only
  split <;> rfl

theorem year?_mark : year? (s ++ 'T' :: rest) = (year? s).map (handOn rest) := by
  unfold year?
  rw [Text.trimStart_mark]
  cases Text.trimStart s with
  | nil => rfl
  | cons c t =>
      rw [List.cons_append]
      split
      · next digits hminus =>
        cases hminus
        simp only [unlimited?_mark, Option.map_map, Function.comp_def, handOn]
      · next digits hplus =>
        cases hplus
        simp only [unlimited?_mark, Option.map_map, Function.comp_def, handOn]
      · next hminus hplus =>
        have hnumber := Text.number?_mark (c :: t) rest 1 4
        rw [List.cons_append] at hnumber
        -- The same character is in front of the mark alone, so there is no sign there either.
        split
        · next heq =>
          cases heq
          exact (hminus _ rfl).elim
        · next heq =>
          cases heq
          exact (hplus _ rfl).elim
        · simp only [hnumber, Option.map_map, Function.comp_def, handOn]

theorem fraction?_mark : fraction? (s ++ 'T' :: rest) = (fraction? s).map (handOn rest) := by
  unfold fraction?
  cases s with
  | nil => rfl
  | cons c s =>
      rw [List.cons_append]
      split
      · next digits hpoint =>
        cases hpoint
        simp only [Text.digitRun_mark, Text.afterDigits_mark]
        split <;> rfl
      · next hpoint =>
        split
        · next heq =>
          cases heq
          exact (hpoint _ rfl).elim
        · rfl

theorem dayParts?_mark : dayParts? (s ++ 'T' :: rest) = (dayParts? s).map (handOn rest) := by
  simp (disch := decide) only [dayParts?, bind, year?_mark, loose?_mark, Text.expect?_mark,
    Option.bind_map, Option.map_bind, Function.comp_def, handOn]
  rfl

theorem afterDay?_mark :
    afterDay? (s ++ 'T' :: rest) = (afterDay? s).map (· ++ 'T' :: rest) := by
  unfold afterDay?
  rw [dayParts?_mark, Option.map_map, Option.map_map]
  rfl

theorem afterClock?_mark :
    afterClock? (s ++ 'T' :: rest) = (afterClock? s).map (· ++ 'T' :: rest) := by
  simp (disch := decide) only [afterClock?, bind, fraction?_mark, loose?_mark, Text.expect?_mark,
    Option.bind_map, Option.map_bind, Function.comp_def, handOn]
  rfl

end Mark

/-! ## The midnight of a day -/

section Midnight

/-- The midnight that is written after a day. -/
def midnight : List Char :=
  'T' :: ['0', '0', ':', '0', '0', ':', '0', '0']

variable (s : List Char)

theorem hourMark_suffix_midnight : hourMark <:+ s ++ midnight :=
  (List.suffix_append ['T', '0', '0'] hourMark).trans (List.suffix_append s midnight)

theorem soleForm_midnight :
    soleForm (s ++ midnight) =
      match afterDay? s with
      | none => .mail
      | some [] => .localTime
      | some (_ :: _) => .internet := by
  have hmark : afterDay? (s ++ midnight) = (afterDay? s).map (· ++ midnight) :=
    afterDay?_mark s _
  unfold soleForm
  rw [hmark]
  cases afterDay? s with
  | none => rfl
  | some left =>
      cases left with
      | nil => rfl
      | cons c left =>
          have hclock : afterClock? (left ++ midnight) ≠ some [] := by
            unfold midnight
            rw [afterClock?_mark]
            cases afterClock? left <;> simp
          exact if_neg hclock

theorem localTime?_midnight (hday : afterDay? s = some []) :
    localTime? (s ++ midnight) = day? s := by
  obtain ⟨⟨parts, rest⟩, hparts, rfl⟩ := Option.map_eq_some_iff.mp hday
  have hmark : dayParts? (s ++ midnight) = some (parts, midnight) := by
    unfold midnight
    rw [dayParts?_mark, hparts]
    rfl
  have hlocal : localTime? (s ++ midnight) =
      epochMillisOfParts? parts.year parts.month parts.day 0 0 0 0 0 := scan_step hmark rfl
  have hread : day? s = epochMillisOfParts? parts.year parts.month parts.day 0 0 0 0 0 :=
    scan_step hparts rfl
  rw [hlocal, hread]

theorem day?_eq_none (hafter : afterDay? s ≠ some []) : day? s = none := by
  cases hparts : dayParts? s with
  | none => exact scan_stop hparts
  | some read =>
      obtain ⟨parts, rest⟩ := read
      cases rest with
      | nil => exact absurd (by rw [afterDay?, hparts]; rfl) hafter
      | cons c rest => exact scan_step hparts rfl

/-- In front of a midnight a text is read as a day alone would be. -/
theorem read?_midnight : (soleForm (s ++ midnight)).read? (s ++ midnight) = day? s := by
  have hend := hourMark_suffix_midnight s
  have hform := soleForm_midnight s
  cases hday : afterDay? s with
  | none =>
      rw [hday] at hform
      rw [hform, day?_eq_none s (by simp [hday])]
      exact mail?_of_hourMark hend
  | some left =>
      rw [hday] at hform
      cases left with
      | nil =>
          rw [hform]
          exact localTime?_midnight s hday
      | cons c left =>
          rw [hform, day?_eq_none s (by simp [hday])]
          exact internet?_of_hourMark hend

end Midnight

end DateText

/-! ## Blanks around a midnight -/

theorem Text.trim_eq_trimStart {s : List Char} (hlast : ∀ c ∈ s.getLast?, isBlank c = false) :
    trim s = trimStart s := by
  have hfirst : ∀ c ∈ (trimStart s).head?, isBlank c = false := by
    intro c hc
    have hend := List.head?_dropWhile_not isBlank s
    rw [show (s.dropWhile isBlank).head? = some c from hc] at hend
    exact hend
  have hkept : ∀ c ∈ (trimStart s).getLast?, isBlank c = false := by
    intro c hc
    have hne : trimStart s ≠ [] := by
      intro hnil
      rw [hnil] at hc
      cases hc
    rw [← DateText.getLast?_of_suffix (trimStart_suffix s) hne] at hc
    exact hlast c hc
  calc trim s = trim (trimStart s) := by unfold trim; rw [trimStart_trimStart]
    _ = trimStart s := trim_eq_self hfirst hkept

open DateText

theorem Value.epochMillis?_eq_read? (s : String) :
    (Value.text s).epochMillis? =
      (soleForm (Text.trim s.toList)).read? (Text.trim s.toList) :=
  findSome?_read? (Form.mem_all _)

theorem Value.epochMillis?_midnight
    {day : String} (hlast : ∀ c ∈ day.toList.getLast?, Text.isBlank c = false) :
    (Value.text (day ++ "T00:00:00")).epochMillis? = Form.day.read? (Text.trim day.toList) := by
  have hend : ∀ c ∈ (day.toList ++ midnight).getLast?, Text.isBlank c = false := by
    intro c hc
    rw [List.getLast?_append_of_ne_nil _ (by decide)] at hc
    rw [← Option.some.inj hc]
    decide
  have htrim : Text.trim (day ++ "T00:00:00").toList = Text.trim day.toList ++ midnight := by
    calc Text.trim (day ++ "T00:00:00").toList
        = Text.trim (day.toList ++ midnight) := by rw [String.toList_append]; rfl
      _ = Text.trimStart (day.toList ++ midnight) := Text.trim_eq_trimStart hend
      _ = Text.trimStart day.toList ++ midnight := Text.trimStart_mark _ _
      _ = Text.trim day.toList ++ midnight := by rw [Text.trim_eq_trimStart hlast]
  rw [Value.epochMillis?_eq_read?, htrim]
  exact read?_midnight _

end FormCheck
