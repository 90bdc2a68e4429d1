import FormCheck.Argument.Word
import FormCheck.Proofs.SignedDigits

/-!
# Integers in words of 64 bits

The integer in front of an argument is collected digit by digit in a word of 64 bits
with a sign, with a check for overflow at every digit, and is multiplied by its sign
without one.  This file shows that the checks fail exactly if the whole number is out of
range, so they never refuse a number too early, and that the product is always exact:
the words that are collected are not negative, and no word but the least one lacks its
negative.  Hence the integer that is read is the one that is written, or none.
-/

namespace FormCheck

namespace Argument

/-! ## Collecting digits -/

theorem toInt_of_word? {n : ℤ} {word : Int64} (hword : word? n = some word) : word.toInt = n := by
  unfold word? integerLimit at hword
  split at hword
  · next hrange =>
    rw [← Option.some.inj hword]
    exact Int64.toInt_ofInt_of_le (by omega) (by omega)
  · cases hword

theorem word?_toInt (word : Int64) : word? word.toInt = some word := by
  have hleast := Int64.le_toInt word
  have hgreatest := Int64.toInt_lt word
  unfold word? integerLimit
  rw [if_pos (by omega), Int64.ofInt_toInt]

theorem word?_eq_none_iff {n : ℕ} : word? n = none ↔ integerLimit < n := by
  unfold word? integerLimit
  split
  · next hrange =>
    simp only [reduceCtorEq, false_iff]
    omega
  · next hrange =>
    simp only [true_iff]
    omega

/-- Taking a digit gives the word of the longer number: where the product with ten overflows, the
sum would, too. -/
theorem appendDigit?_eq {word : Int64} {n : ℕ} (hword : word.toInt = n) (digit : Char) :
    appendDigit? word digit = word? (10 * n + (digit.toNat - '0'.toNat) : ℕ) := by
  have hproduct : word.toInt * 10 = (10 * n : ℕ) := by
    rw [hword]
    omega
  unfold appendDigit?
  rw [hproduct]
  cases htens : word? (10 * n : ℕ) with
  | none =>
      have hbeyond := word?_eq_none_iff.mp htens
      exact (word?_eq_none_iff.mpr (by omega)).symm
  | some tens =>
      change word? (tens.toInt + _) = _
      rw [toInt_of_word? htens, ← Int.natCast_add]

/-- Collecting goes on from the word of a number to the word of the number with the digits behind
it, and fails only if that number has none: the numbers on the way are not greater. -/
theorem foldlM_appendDigit? {word : Int64} {n : ℕ} (hword : word.toInt = n) (digits : List Char) :
    digits.foldlM appendDigit? word = word? (Nat.ofDigitChars 10 digits n : ℕ) := by
  induction digits generalizing word n with
  | nil => exact (hword ▸ word?_toInt word).symm
  | cons digit rest ih =>
      rw [List.foldlM_cons, appendDigit?_eq hword, Nat.ofDigitChars_cons]
      cases hnext : word? (10 * n + (digit.toNat - '0'.toNat) : ℕ) with
      | none =>
          have hbeyond := word?_eq_none_iff.mp hnext
          have hle := Text.le_ofDigitChars rest (10 * n + (digit.toNat - '0'.toNat))
          exact (word?_eq_none_iff.mpr (Nat.lt_of_lt_of_le hbeyond hle)).symm
      | some next => exact ih (toInt_of_word? hnext)

theorem collect?_eq (digits : List Char) : collect? digits = word? (Text.numberOfDigits digits) :=
  foldlM_appendDigit? Int64.toInt_zero digits

/-! ## The sign -/

theorem toInt_signWord_mul {digits : List Char} {word : Int64}
    (hcollect : collect? digits = some word) (negative : Bool) :
    (signWord negative * word).toInt = (signWord negative).toInt * word.toInt := by
  rw [collect?_eq] at hcollect
  have hvalue := toInt_of_word? hcollect
  have hgreatest := Int64.toInt_lt word
  rw [Int64.toInt_mul]
  cases negative with
  | true =>
      have hsign : (signWord true).toInt = -1 := by decide
      rw [hsign]
      exact Int.bmod_eq_of_le (by omega) (by omega)
  | false =>
      have hsign : (signWord false).toInt = 1 := by decide
      rw [hsign]
      exact Int.bmod_eq_of_le (by omega) (by omega)

theorem toInt_signWord_mul_eq_signed {digits : List Char} {word : Int64}
    (hcollect : collect? digits = some word) (negative : Bool) :
    (signWord negative * word).toInt = Number.signed negative (Text.numberOfDigits digits) := by
  have hproduct := toInt_signWord_mul hcollect negative
  rw [collect?_eq] at hcollect
  rw [hproduct, toInt_of_word? hcollect]
  cases negative with
  | true => exact Int.neg_one_mul _
  | false => exact Int.one_mul _

theorem map_toInt_integerWord? (arg : String) :
    (integerWord? arg).map Int64.toInt = integer? arg := by
  unfold integerWord? integer?
  simp only
  generalize splitSign (Text.trimStart arg.toList) = signed
  by_cases hnone : (Text.digitRun signed.2).isEmpty = true
  · rw [if_pos hnone, if_pos (.inl hnone)]
    rfl
  · rw [if_neg hnone]
    cases hcollect : collect? (Text.digitRun signed.2) with
    | none =>
        rw [collect?_eq, word?_eq_none_iff] at hcollect
        rw [if_pos (.inr hcollect)]
        rfl
    | some word =>
        have hwithin : ¬ integerLimit < Text.numberOfDigits (Text.digitRun signed.2) := by
          rw [← word?_eq_none_iff, ← collect?_eq, hcollect]
          simp
        rw [if_neg (not_or.mpr ⟨hnone, hwithin⟩)]
        exact congrArg some (toInt_signWord_mul_eq_signed hcollect signed.1)

/-! ## Arguments without an integer in front -/

/-- Behind the blanks and at most one sign there is no digit. Without a sign, what follows the
blanks is neither a blank nor a sign. -/
def LacksDigits (arg : String) : Prop :=
  ∃ blanks minus rest, arg.toList = blanks ++ (SignedDigits.signText minus ++ rest) ∧
    (∀ c ∈ blanks, Text.isBlank c = true) ∧
    ∀ c ∈ rest.head?, c.isDigit = false ∧
      (minus = none → Text.isBlank c = false ∧ c ≠ '-' ∧ c ≠ '+')

theorem digitRun_eq_nil_iff {s : List Char} :
    Text.digitRun s = [] ↔ ∀ c ∈ s.head?, c.isDigit = false := by
  cases s with
  | nil => simp [Text.digitRun]
  | cons c s =>
      by_cases hc : c.isDigit = true
      · simp [Text.digitRun, hc]
      · simp [Text.digitRun, hc]

theorem leadingInteger?_eq_none_iff {arg : String} :
    leadingInteger? arg = none ↔
      Text.digitRun (splitSign (Text.trimStart arg.toList)).2 = [] := by
  unfold leadingInteger?
  simp only
  split
  · next hnone => simpa using hnone
  · next hsome => simpa using hsome

theorem lacksDigits_iff {arg : String} : LacksDigits arg ↔ leadingInteger? arg = none := by
  rw [leadingInteger?_eq_none_iff]
  constructor
  · rintro ⟨blanks, minus, rest, harg, hblanks, hrest⟩
    have hfirst : ∀ c ∈ (SignedDigits.signText minus ++ rest).head?, Text.isBlank c = false :=
      SignedDigits.not_blank_head_signText_append fun hunsigned c hc =>
        ((hrest c hc).2 hunsigned).1
    have htrim : Text.trimStart arg.toList = SignedDigits.signText minus ++ rest := by
      rw [harg, Text.trimStart, List.dropWhile_append_of_pos hblanks]
      exact Text.dropWhile_isBlank_eq_self hfirst
    have hsplit : (splitSign (Text.trimStart arg.toList)).2 = rest := by
      rw [htrim]
      cases minus with
      | none => rw [SignedDigits.splitSign_signText none fun c hc => ((hrest c hc).2 rfl).2]
      | some negative => cases negative <;> rfl
    rw [hsplit, digitRun_eq_nil_iff]
    exact fun c hc => (hrest c hc).1
  · intro hrun
    obtain ⟨blanks, hblanks, harg⟩ := Text.exists_blank_append_trimStart arg.toList
    obtain ⟨minus, hsign, -, hunsigned⟩ :=
      SignedDigits.exists_signText_of_splitSign (Text.trimStart arg.toList)
    refine ⟨blanks, minus, _, harg.trans (congrArg _ hsign), hblanks, ?_⟩
    intro c hc
    refine ⟨digitRun_eq_nil_iff.mp hrun c hc, ?_⟩
    rintro rfl
    have hwhole : c ∈ (Text.trimStart arg.toList).head? := by
      rw [hsign]
      exact hc
    have hend := List.head?_dropWhile_not Text.isBlank arg.toList
    rw [Text.trimStart, Option.mem_def] at hwhole
    rw [hwhole] at hend
    exact ⟨by simpa using hend, hunsigned rfl c hwhole⟩

theorem integer?_eq_none_iff {arg : String} :
    integer? arg = none ↔
      LacksDigits arg ∨ ∃ n, StartsWith arg n ∧ integerLimit < n.natAbs := by
  rw [lacksDigits_iff]
  cases hread : leadingInteger? arg with
  | none =>
      simp only [true_or, iff_true]
      rw [Option.eq_none_iff_forall_ne_some]
      intro n hn
      have hstarts := startsWith_iff.mp (integer?_eq_some_iff.mp hn).1
      rw [hread] at hstarts
      cases hstarts
  | some n =>
      have hstarts := startsWith_iff.mpr hread
      simp only [reduceCtorEq, false_or]
      constructor
      · intro hnone
        refine ⟨n, hstarts, ?_⟩
        by_contra hwithin
        rw [integer?_eq_some_iff.mpr ⟨hstarts, Nat.le_of_not_lt hwithin⟩] at hnone
        cases hnone
      · rintro ⟨m, hm, hbeyond⟩
        obtain rfl := hstarts.unique hm
        rw [Option.eq_none_iff_forall_ne_some]
        intro k hk
        obtain ⟨hother, hwithin⟩ := integer?_eq_some_iff.mp hk
        obtain rfl := hother.unique hstarts
        omega

end Argument

/-! ## The decimal text of an integer -/

namespace SignedDigits

/-- The digits of an integer behind a minus where it is negative. -/
def ofInt (n : ℤ) : SignedDigits :=
  ofNumber (if n < 0 then some true else none) n.natAbs

theorem text_ofInt (n : ℤ) : (ofInt n).text = (toString n).toList := by
  cases n with
  | ofNat n =>
      have hsign : ¬ Int.ofNat n < 0 := Int.not_lt.mpr (Int.natCast_nonneg n)
      rw [text, ofInt, if_neg hsign]
      exact String.toList_ofList.symm
  | negSucc n =>
      have htext : toString (Int.negSucc n) = "-" ++ Nat.repr (n + 1) := rfl
      rw [text, ofInt, if_pos (Int.negSucc_lt_zero n), htext, String.toList_append]
      exact congrArg _ String.toList_ofList.symm

theorem value_ofInt (n : ℤ) : (ofInt n).value = n := by
  have hsign : (if n < 0 then some true else none).getD false = decide (n < 0) := by
    split
    · next hneg => exact (decide_eq_true hneg).symm
    · next hnonneg => exact (decide_eq_false hnonneg).symm
  rw [ofInt, value_ofNumber, hsign, Number.signed_natAbs]

end SignedDigits

namespace Argument

theorem integer?_toString_append
    {n : ℤ} {rest : String} (hn : n.natAbs ≤ integerLimit)
    (hrest : ∀ c ∈ rest.toList.head?, c.isDigit = false) :
    integer? (toString n ++ rest) = some n := by
  let leading : LeadingInteger := {
    blanks := []
    number := SignedDigits.ofInt n
    rest := rest.toList
    isBlank_blanks := by simp
    ends := hrest }
  refine integer?_eq_some_iff.mpr ⟨⟨leading, ?_, SignedDigits.value_ofInt n⟩, hn⟩
  change [] ++ ((SignedDigits.ofInt n).text ++ rest.toList) = _
  rw [List.nil_append, SignedDigits.text_ofInt, String.toList_append]

/-! ## What is read -/

/-- An integer is read exactly if it stands in front of the argument and has a word together with
its negative.  Nothing is read exactly if the argument lacks digits or if they are beyond the
range.  Reading in words gives the same, no product with a sign overflows, and every
integer is read from its decimal text. -/
theorem integers_in_front_read :
    (∀ (arg : String) (z : ℤ), integer? arg = some z ↔
      ∃ leading : LeadingInteger, leading.text = arg.toList ∧
        Text.numberOfDigits leading.number.digits ≤ 2 ^ 63 - 1 ∧ leading.number.value = z) ∧
    (∀ arg : String, integer? arg = none ↔
      LacksDigits arg ∨ ∃ leading : LeadingInteger, leading.text = arg.toList ∧
        2 ^ 63 - 1 < Text.numberOfDigits leading.number.digits) ∧
    (∀ arg : String, (integerWord? arg).map Int64.toInt = integer? arg ∧
      integer? arg ≠ some (-2 ^ 63)) ∧
    (∀ digits word negative, collect? digits = some word →
      (signWord negative * word).toInt = (signWord negative).toInt * word.toInt) ∧
    ∀ (z : ℤ) (rest : String), z.natAbs ≤ 2 ^ 63 - 1 →
      (∀ c ∈ rest.toList.head?, c.isDigit = false) → integer? (toString z ++ rest) = some z := by
  have hsize : ∀ number : SignedDigits,
      number.value.natAbs = Text.numberOfDigits number.digits := fun number =>
    Number.natAbs_signed _ _
  refine ⟨?_, ?_, ?_, ?_, ?_⟩
  · intro arg z
    rw [integer?_eq_some_iff]
    constructor
    · rintro ⟨⟨leading, htext, rfl⟩, hlimit⟩
      exact ⟨leading, htext, hsize leading.number ▸ hlimit, rfl⟩
    · rintro ⟨leading, htext, hlimit, rfl⟩
      exact ⟨⟨leading, htext, rfl⟩, hsize leading.number ▸ hlimit⟩
  · intro arg
    rw [integer?_eq_none_iff]
    refine or_congr_right ?_
    constructor
    · rintro ⟨n, ⟨leading, htext, rfl⟩, hbeyond⟩
      exact ⟨leading, htext, hsize leading.number ▸ hbeyond⟩
    · rintro ⟨leading, htext, hbeyond⟩
      exact ⟨_, ⟨leading, htext, rfl⟩, hsize leading.number ▸ hbeyond⟩
  · intro arg
    refine ⟨map_toInt_integerWord? arg, ?_⟩
    intro hleast
    exact absurd (integer?_eq_some_iff.mp hleast).2 (by decide)
  · intro digits word negative hcollect
    exact toInt_signWord_mul hcollect negative
  · intro z rest hz hrest
    exact integer?_toString_append hz hrest

theorem greatest_integer_read :
    integer? "-9223372036854775807px" = some (-9223372036854775807) ∧
    collect? "9223372036854775807".toList = some 9223372036854775807 ∧
    (signWord true * 9223372036854775807).toInt =
      (signWord true).toInt * Int64.toInt 9223372036854775807 := by
  have htext : "-9223372036854775807px" = toString (-9223372036854775807 : ℤ) ++ "px" := by
    decide +kernel
  have hcollect : collect? "9223372036854775807".toList = some 9223372036854775807 := by
    decide +kernel
  have hends : ∀ c ∈ "px".toList.head?, c.isDigit = false := by
    intro c hc
    obtain rfl : 'p' = c := Option.some.inj hc
    rfl
  obtain ⟨-, -, -, hproduct, hwritten⟩ := integers_in_front_read
  have hread := hwritten (-9223372036854775807) "px" (by decide) hends
  rw [← htext] at hread
  exact ⟨hread, hcollect, hproduct _ _ true hcollect⟩

-- A second sign, a blank behind the sign, digits of another script, and the least word.
example : integer? "+-5" = none ∧ integer? "- 5" = none ∧ integer? "٣" = none ∧
    integer? "-9223372036854775808" = none := by
  decide

end Argument

end FormCheck
