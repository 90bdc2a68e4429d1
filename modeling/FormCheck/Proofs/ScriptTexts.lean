import FormCheck.Proofs.FewestDigits
import FormCheck.Proofs.NumberLayout
import FormCheck.Value

/-!
# Number texts in script style

The text of a finite number other than zero consists of a sign, if the number is negative,
and the digits of its shortest decimal.  Where the digits stand depends on their number
and on the power of ten of the first one only.  There are never more than eighteen of
them, so a point among the digits never gives way to an exponent mark.
-/

namespace FormCheck

namespace NumberStyle

/-- The layout of digits in script style, where `exponent` is the power of ten of the first one. -/
def scriptLayout (digits : List Char) (exponent : Int) : List Char :=
  if (digits.length : Int) - 1 ≤ exponent ∧ exponent < 21 then
    digits ++ List.replicate (exponent - digits.length + 1).toNat '0'
  else if 0 ≤ exponent ∧ exponent < (digits.length : Int) - 1 then
    digits.take (exponent + 1).toNat ++ '.' :: digits.drop (exponent + 1).toNat
  else if -6 ≤ exponent ∧ exponent < 0 then
    '0' :: '.' :: List.replicate (-exponent - 1).toNat '0' ++ digits
  else
    digits.take 1 ++ (if 1 < digits.length then '.' :: digits.drop 1 else []) ++
      ['e', if exponent < 0 then '-' else '+'] ++ Text.digitsOfNumber exponent.natAbs

section Layout

variable {digits : List Char} {exponent : Int} {decimal : Decimal}

theorem positional_script (hne : digits ≠ []) (hleast : -6 ≤ exponent) (hgreatest : exponent ≤ 20) :
    script.positional digits exponent = scriptLayout digits exponent := by
  have hpositive := List.length_pos_iff.mpr hne
  have hpoint : script.wholePoint = false := rfl
  unfold positional scriptLayout
  simp only
  rw [hpoint]
  rcases lt_or_ge exponent 0 with hfraction | hwhole
  · have hnotWhole : ¬((digits.length : Int) - 1 ≤ exponent ∧ exponent < 21) := by omega
    have hnotInside : ¬(0 ≤ exponent ∧ exponent < (digits.length : Int) - 1) := by omega
    rw [if_pos hfraction, if_neg hnotWhole, if_neg hnotInside, if_pos ⟨hleast, hfraction⟩]
    rfl
  · rw [if_neg hwhole.not_gt]
    rcases le_or_gt digits.length (exponent + 1).toNat with hshort | hlong
    · have hzeros : (exponent + 1).toNat - digits.length =
          (exponent - digits.length + 1).toNat := by omega
      have hends : (digits.length : Int) - 1 ≤ exponent ∧ exponent < 21 := by omega
      rw [if_pos hshort, if_neg Bool.false_ne_true, if_pos hends, List.append_nil, hzeros]
    · have hnotWhole : ¬((digits.length : Int) - 1 ≤ exponent ∧ exponent < 21) := by omega
      rw [if_neg hlong.not_ge, if_neg hnotWhole, if_pos ⟨hwhole, by omega⟩, List.append_assoc]
      rfl

theorem exponential_script
    (hfew : digits.length ≤ 21) (hbounds : ¬(-6 ≤ exponent ∧ exponent ≤ 20)) :
    exponential digits exponent = scriptLayout digits exponent := by
  have hnotWhole : ¬((digits.length : Int) - 1 ≤ exponent ∧ exponent < 21) := by omega
  have hnotInside : ¬(0 ≤ exponent ∧ exponent < (digits.length : Int) - 1) := by omega
  have hnotFraction : ¬(-6 ≤ exponent ∧ exponent < 0) := by omega
  unfold exponential scriptLayout
  rw [if_neg hnotWhole, if_neg hnotInside, if_neg hnotFraction]
  simp only
  rcases Nat.lt_or_ge 1 digits.length with hmore | hone
  · have hrest : (digits.drop 1).isEmpty = false := by
      rw [List.isEmpty_eq_false_iff, ne_eq, List.drop_eq_nil_iff]
      omega
    rw [if_pos hmore, hrest, if_neg Bool.false_ne_true]
  · rw [if_neg hone.not_gt, List.drop_eq_nil_of_le hone, List.isEmpty_nil, if_pos rfl]

/-- Up to twenty-one digits are laid out by the rule of script style. -/
theorem decimalText_script (hfew : Text.digitCount decimal.digits ≤ 21) :
    script.decimalText decimal =
      scriptLayout (Text.digitsOfNumber decimal.digits) (leading decimal) := by
  have hne := Text.digitsOfNumber_ne_nil decimal.digits
  change (if -6 ≤ leading decimal ∧ leading decimal ≤ 20 then
    script.positional (Text.digitsOfNumber decimal.digits) (leading decimal)
    else exponential (Text.digitsOfNumber decimal.digits) (leading decimal)) = _
  split
  · next hbounds => exact positional_script hne hbounds.1 hbounds.2
  · next hbounds => exact exponential_script hfew hbounds

end Layout

end NumberStyle

namespace Number

open NumberStyle

theorem digitCount_shortest_le (tie : Tie) (negative : Bool) (rank : ℕ) :
    Text.digitCount (shortest tie negative rank).digits ≤ 18 :=
  digitCount_le (by decide) ((digits_shortest_le tie negative rank).trans_lt (by decide))

theorem toList_display_finite (negative : Bool) {magnitude : Fin magnitudeCount}
    (hmagnitude : magnitude.val ≠ 0) :
    (Value.number (.finite negative magnitude)).display.toList =
      (if negative then ['-'] else []) ++
        script.decimalText (shortest .upward negative magnitude) := by
  change (String.ofList (script.finiteText negative magnitude)).toList = _
  rw [String.toList_ofList, finiteText, if_neg hmagnitude]
  rfl

/-- The text of every finite number but zero has a sign if the number is negative, and then the
digits of a decimal that rounds to the number: no such decimal has fewer digits, and none with as
many is nearer.  Neither the first nor the last digit is zero, and the rule of script style says
where the digits stand.  Length rules count the characters of this text. -/
theorem text_of_shortest_digits
    (negative : Bool) (magnitude : Fin magnitudeCount) (hmagnitude : magnitude.val ≠ 0) :
    ∃ decimal : Decimal, decimal.IsShortest negative magnitude ∧
      (Text.digitsOfNumber decimal.digits).head? ≠ some '0' ∧
      (Text.digitsOfNumber decimal.digits).getLast? ≠ some '0' ∧
      (Value.number (.finite negative magnitude)).display.toList =
        (if negative then ['-'] else []) ++
          scriptLayout (Text.digitsOfNumber decimal.digits) (leading decimal) ∧
      (Value.number (.finite negative magnitude)).charCount =
        ((if negative then ['-'] else []) ++
          scriptLayout (Text.digitsOfNumber decimal.digits) (leading decimal)).length := by
  have hdigits := digits_shortest_ne_zero .upward negative hmagnitude
  have hlast := digits_shortest_mod .upward negative hmagnitude
  have hfew := digitCount_shortest_le .upward negative magnitude
  have htext := toList_display_finite negative hmagnitude
  rw [decimalText_script (hfew.trans (by decide))] at htext
  refine ⟨shortest .upward negative magnitude, isShortest_shortest .upward negative hmagnitude,
    Text.head?_digitsOfNumber_ne hdigits, Text.getLast?_digitsOfNumber_ne hlast, htext, ?_⟩
  rw [Value.charCount, htext]

/-- The least whole power of ten that has an exponent mark, with a minus. -/
theorem marked_power_text :
    ∃ decimal : Decimal, decimal.IsShortest true ⟨0x444B1AE4D6E2EF50, by decide⟩ ∧
      '-' :: scriptLayout (Text.digitsOfNumber decimal.digits) (leading decimal) =
        "-1e+21".toList ∧
      (Value.number (.finite true ⟨0x444B1AE4D6E2EF50, by decide⟩)).charCount = 6 := by
  have htext : (Value.number (.finite true ⟨0x444B1AE4D6E2EF50, by decide⟩)).display.toList =
      "-1e+21".toList := by decide +kernel
  obtain ⟨decimal, hshortest, -, -, hlayout, hcount⟩ :=
    text_of_shortest_digits true ⟨0x444B1AE4D6E2EF50, by decide⟩ (by decide)
  refine ⟨decimal, hshortest, hlayout.symm.trans htext, hcount.trans ?_⟩
  rw [← hlayout, htext]
  decide

end Number

end FormCheck
