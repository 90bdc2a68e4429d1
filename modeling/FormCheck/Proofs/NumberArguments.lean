import FormCheck.Proofs.DecimalLiterals
import FormCheck.Proofs.RereadNumbers

/-!
# Written numbers as arguments

The literal of a written number is one of those that an argument can spell.  There it is
read digit by digit, with no limit on their number, and denotes the number nearest to its
decimal.  This holds of every exponent: a power of ten that is too large to be formed
decides the number by itself.
-/

namespace FormCheck

/-! ## The number nearest to a decimal -/

namespace Number

theorem ofRank_beyond {rank : ℕ} (negative : Bool) (hrank : magnitudeCount ≤ rank) :
    ofRank negative rank = .infinite negative := by
  rw [ofRank, dif_neg (Nat.not_lt_of_le hrank)]

theorem nearestRank_tiny : nearestRank 1 (Decimal.tenTo 331) = 0 := by
  decide +kernel

end Number

namespace Decimal

variable {decimal : Decimal}

/-- A decimal with more than 330 zeros after its point rounds to zero. -/
theorem nearestRank_eq_zero_of_tiny
    (htiny : (Text.digitCount decimal.digits : ℤ) + decimal.exponent < -330) :
    decimal.nearestRank = 0 := by
  have hdigits := (Number.tenTo_digitCount decimal.digits).1
  have hcross : decimal.digits * tenTo decimal.exponent.toNat * tenTo 331 ≤
      1 * tenTo (-decimal.exponent).toNat := by
    calc decimal.digits * tenTo decimal.exponent.toNat * tenTo 331
        ≤ tenTo (Text.digitCount decimal.digits) * tenTo decimal.exponent.toNat * tenTo 331 :=
          Nat.mul_le_mul_right _ (Nat.mul_le_mul_right _ hdigits.le)
      _ = tenTo (Text.digitCount decimal.digits + decimal.exponent.toNat + 331) := by
          rw [tenTo_add, tenTo_add]
      _ ≤ tenTo (-decimal.exponent).toNat := tenTo_le_tenTo (by omega)
      _ = 1 * tenTo (-decimal.exponent).toNat := (Nat.one_mul _).symm
  have hle := Number.nearestRank_mono (tenTo_pos _) (tenTo_pos _) hcross
  rw [Number.nearestRank_tiny] at hle
  exact Nat.le_zero.mp hle

/-- A decimal with more than 310 digits before its point is beyond the finite magnitudes. -/
theorem le_nearestRank_of_huge
    (hdigits : decimal.digits ≠ 0)
    (hhuge : 310 < (Text.digitCount decimal.digits : ℤ) + decimal.exponent) :
    Number.magnitudeCount ≤ decimal.nearestRank := by
  have hleading := (Number.tenTo_digitCount decimal.digits).2 hdigits
  have hcross : tenTo (Number.lastTenExponent + 1) * tenTo (-decimal.exponent).toNat ≤
      decimal.digits * tenTo decimal.exponent.toNat * 1 := by
    calc tenTo (Number.lastTenExponent + 1) * tenTo (-decimal.exponent).toNat
        = tenTo (Number.lastTenExponent + 1 + (-decimal.exponent).toNat) := (tenTo_add _ _).symm
      _ ≤ tenTo (Text.digitCount decimal.digits - 1 + decimal.exponent.toNat) := by
          apply tenTo_le_tenTo
          simp only [Number.lastTenExponent]
          omega
      _ = tenTo (Text.digitCount decimal.digits - 1) * tenTo decimal.exponent.toNat :=
          tenTo_add _ _
      _ ≤ decimal.digits * tenTo decimal.exponent.toNat := Nat.mul_le_mul_right _ hleading
      _ = decimal.digits * tenTo decimal.exponent.toNat * 1 := (Nat.mul_one _).symm
  exact Number.tenTo_beyond.trans (Number.nearestRank_mono Nat.one_pos (tenTo_pos _) hcross)

/-- Every decimal is read as the number nearest to it: the decimals for which no power of ten is
formed are out of the range of the finite non-zero magnitudes. -/
theorem toNumber_eq (decimal : Decimal) :
    decimal.toNumber = Number.ofRank decimal.negative decimal.nearestRank := by
  unfold toNumber rank
  simp only
  by_cases hdigits : decimal.digits = 0
  · have hzero : decimal.nearestRank = 0 := by
      rw [nearestRank, hdigits, Nat.zero_mul]
      exact Number.nearestRank_zero (tenTo_pos _)
    rw [if_pos (.inl hdigits), hzero]
  · by_cases htiny : (Text.digitCount decimal.digits : ℤ) + decimal.exponent < -330
    · rw [if_pos (.inr htiny), nearestRank_eq_zero_of_tiny htiny]
    · rw [if_neg (not_or.mpr ⟨hdigits, htiny⟩)]
      by_cases hhuge : 310 < (Text.digitCount decimal.digits : ℤ) + decimal.exponent
      · rw [if_pos hhuge, Number.ofRank_beyond _ le_rfl,
          Number.ofRank_beyond _ (le_nearestRank_of_huge hdigits hhuge)]
      · rw [if_neg hhuge]
        by_cases hwhole : 0 ≤ decimal.exponent
        · rw [if_pos hwhole, nearestRank_of_nonneg hwhole]
        · rw [if_neg hwhole, nearestRank_of_neg (Int.not_le.mp hwhole)]

end Decimal

/-! ## Written literals as arguments -/

/-- The digits of an exponent, which is always written with its sign. -/
def SignedDigits.ofExponent (exponent : ℤ) : SignedDigits :=
  .ofNumber (some (decide (exponent < 0))) exponent.natAbs

theorem SignedDigits.value_ofExponent (exponent : ℤ) : (ofExponent exponent).value = exponent :=
  (value_ofNumber _ _).trans (Number.signed_natAbs exponent)

theorem SignedDigits.text_ofExponent (exponent : ℤ) :
    (ofExponent exponent).text =
      (if exponent < 0 then '-' else '+') :: Text.digitsOfNumber exponent.natAbs := by
  unfold ofExponent text
  by_cases hsign : exponent < 0
  · rw [decide_eq_true hsign, if_pos hsign]
    rfl
  · rw [decide_eq_false hsign, if_neg hsign]
    rfl

namespace Literal

variable {literal : Literal}

/-- The literal of a written number, with its sign, among those that an argument can spell. -/
def spelled (literal : Literal) (hliteral : literal.WellFormed) (negative : Bool) :
    DecimalLiteral where
  minus := if negative then some true else none
  whole := literal.whole
  fraction := if literal.fraction = [] then none else some literal.fraction
  exponent := literal.exponent.map fun exponent => ('e', .ofExponent exponent)
  isDigit_whole := hliteral.isDigit_whole
  isDigit_fraction := by
    split
    · exact fun _ hc => absurd hc List.not_mem_nil
    · exact hliteral.isDigit_fraction
  mark_mem := by
    intro part hpart
    obtain ⟨exponent, -, rfl⟩ := Option.mem_map.mp hpart
    exact .inl rfl
  has_digit := .inl hliteral.whole_ne_nil

theorem fractionText_spelled (hliteral : literal.WellFormed) (negative : Bool) :
    DecimalLiteral.fractionText (literal.spelled hliteral negative).fraction =
      fractionText literal.fraction := by
  obtain ⟨whole, fraction, exponent⟩ := literal
  cases fraction with
  | nil => rfl
  | cons c digits => rfl

theorem exponentText_spelled (hliteral : literal.WellFormed) (negative : Bool) :
    DecimalLiteral.exponentText (literal.spelled hliteral negative).exponent =
      exponentText literal.exponent := by
  obtain ⟨whole, fraction, exponent⟩ := literal
  cases exponent with
  | none => rfl
  | some exponent =>
      change 'e' :: (SignedDigits.ofExponent exponent).text =
        ['e', if exponent < 0 then '-' else '+'] ++ Text.digitsOfNumber exponent.natAbs
      rw [SignedDigits.text_ofExponent]
      rfl

theorem text_spelled (hliteral : literal.WellFormed) (negative : Bool) :
    (literal.spelled hliteral negative).text =
      (if negative then ['-'] else []) ++ literal.text := by
  have hsign : SignedDigits.signText (literal.spelled hliteral negative).minus =
      if negative then ['-'] else [] := by
    cases negative <;> rfl
  rw [DecimalLiteral.text, DecimalLiteral.unsignedText, hsign, fractionText_spelled,
    exponentText_spelled, text, List.append_assoc literal.whole]
  rfl

theorem decimal_spelled (hliteral : literal.WellFormed) (negative : Bool) :
    (literal.spelled hliteral negative).decimal = literal.decimal negative := by
  have hsign : (literal.spelled hliteral negative).minus.getD false = negative := by
    cases negative <;> rfl
  have hfraction : (literal.spelled hliteral negative).fraction.getD [] = literal.fraction := by
    obtain ⟨whole, fraction, exponent⟩ := literal
    cases fraction <;> rfl
  have hexponent :
      (literal.spelled hliteral negative).exponentValue = literal.exponent.getD 0 := by
    obtain ⟨whole, fraction, exponent⟩ := literal
    cases exponent with
    | none => rfl
    | some exponent => exact SignedDigits.value_ofExponent exponent
  rw [DecimalLiteral.decimal, hsign, hfraction, hexponent]
  rfl

theorem exists_digit_text (hliteral : literal.WellFormed) :
    ∃ c rest, literal.text = c :: rest ∧ c.isDigit = true := by
  rw [text, List.append_assoc]
  exact Text.exists_digit_cons hliteral.whole_ne_nil hliteral.isDigit_whole _

theorem number?_text (hliteral : literal.WellFormed) (negative : Bool) :
    Argument.number? ((if negative then ['-'] else []) ++ literal.text) =
      some (literal.decimal negative).toNumber := by
  rw [← text_spelled hliteral, DecimalLiteral.number?_text, decimal_spelled]

end Literal

end FormCheck
