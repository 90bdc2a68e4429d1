import FormCheck.Proofs.NumberSpelling
import FormCheck.Proofs.SteppedEvaluation

/-!
# Numbers that are written and read again

A finite number that is written to a document is read as a finite number of the
same sign.  It can lie some places beside the number that was written, since its
text is evaluated in steps.  A number whose text has few digits and a small power
of ten comes back as it was.
-/

namespace FormCheck.Number

variable {negative : Bool} {rank : ℕ}

theorem tenTo_beyond : magnitudeCount ≤ nearestRank (Decimal.tenTo (lastTenExponent + 1)) 1 := by
  decide +kernel

/-- A decimal with a digit and an exponent above 308 is beyond the finite magnitudes. -/
theorem exponent_le_of_nearestRank_lt
    {decimal : Decimal} (hdigits : decimal.digits ≠ 0)
    (hfinite : decimal.nearestRank < magnitudeCount) : decimal.exponent ≤ lastTenExponent := by
  by_contra hlarge
  rw [Decimal.nearestRank_of_nonneg (by omega)] at hfinite
  have hpower : Decimal.tenTo (lastTenExponent + 1) ≤ Decimal.tenTo decimal.exponent.toNat :=
    Decimal.tenTo_le_tenTo (by omega)
  have hle := hpower.trans (Nat.le_mul_of_pos_left _ (Nat.pos_of_ne_zero hdigits))
  exact absurd (tenTo_beyond.trans (nearestRank_mono Nat.one_pos Nat.one_pos
    (Nat.mul_le_mul_right 1 hle))) (Nat.not_le_of_lt hfinite)

/-! ## The decimal of a text -/

theorem nearestRank_written (negative : Bool) (rank : ℕ) :
    (written negative rank).nearestRank = rank :=
  NumberStyle.document.nearestRank_magnitudeLiteral negative rank

theorem digits_written_le (negative : Bool) (rank : ℕ) :
    (written negative rank).digits ≤ 10 ^ 17 :=
  NumberStyle.digits_magnitudeLiteral_document_le negative rank

theorem digits_written_ne_zero (negative : Bool) (hrank : rank ≠ 0) :
    (written negative rank).digits ≠ 0 := by
  apply Decimal.digits_ne_zero
  rwa [nearestRank_written]

theorem digits_written_zero (negative : Bool) : (written negative 0).digits = 0 := by
  rw [written, NumberStyle.decimal_magnitudeLiteral_zero]

theorem exponent_written_ge (negative : Bool) (hrank : rank ≠ 0) :
    -341 ≤ (written negative rank).exponent := by
  have hleast := exponent_shortest_ge NumberStyle.document.tie negative hrank
  rw [written, NumberStyle.document.decimal_magnitudeLiteral negative hrank, NumberStyle.spelled]
  split
  · change -341 ≤ -(NumberStyle.document.wholePlaces : ℤ)
    decide
  · exact hleast

theorem exponent_written_le
    (negative : Bool) (hrank : rank ≠ 0) (hfinite : rank < magnitudeCount) :
    (written negative rank).exponent ≤ lastTenExponent := by
  apply exponent_le_of_nearestRank_lt (digits_written_ne_zero negative hrank)
  rwa [nearestRank_written]

/-! ## The number that is read -/

theorem scaledRank_written_close (negative : Bool) (hfinite : rank < magnitudeCount) :
    WithinPlaces 8 (written negative rank).scaledRank rank := by
  by_cases hrank : rank = 0
  · rw [hrank, Decimal.scaledRank_of_digits_eq_zero (digits_written_zero negative)]
    exact ⟨Nat.zero_le _, Nat.zero_le _⟩
  · have hclose := Decimal.scaledRank_close (digits_written_ne_zero negative hrank)
      (le_trans (by decide) (exponent_written_ge negative hrank))
      (exponent_written_le negative hrank hfinite)
    rwa [nearestRank_written] at hclose

/-- The last magnitudes of the finite range are read as finite numbers. -/
theorem scaledRank_written_last :
    ∀ negative : Bool, ∀ places < 3,
      (written negative (magnitudeCount - 1 - places)).scaledRank < magnitudeCount := by
  decide +kernel

theorem nearestRank_digits_small : nearestRank (10 ^ 17) 1 + 8 < magnitudeCount := by
  decide +kernel

/-- A finite number is never read as an infinity. -/
theorem scaledRank_written_lt (negative : Bool) (hfinite : rank < magnitudeCount) :
    (written negative rank).scaledRank < magnitudeCount := by
  have hnearest := nearestRank_written negative rank
  have hclose := (scaledRank_written_close negative hfinite).1
  by_cases hrank : rank = 0
  · rw [hrank, Decimal.scaledRank_of_digits_eq_zero (digits_written_zero negative)]
    decide
  rcases lt_or_ge (written negative rank).exponent 0 with hfraction | hwhole
  · -- A text with a negative power of ten is not above its digits.
    have hsmall : rank ≤ nearestRank (10 ^ 17) 1 := by
      rw [Decimal.nearestRank_of_neg hfraction] at hnearest
      rw [← hnearest]
      exact nearestRank_mono (Decimal.tenTo_pos _) Nat.one_pos
        (Nat.mul_le_mul (digits_written_le negative rank) (Decimal.tenTo_pos _))
    have hlimit := nearestRank_digits_small
    omega
  · have hnear := (Decimal.scaledRank_close_of_nonneg (digits_written_ne_zero negative hrank) hwhole
      (exponent_written_le negative hrank hfinite)).1
    rw [hnearest] at hnear
    by_cases hlast : rank + 3 < magnitudeCount
    · exact hnear.trans_lt hlast
    · obtain ⟨places, hplaces, rfl⟩ :
          ∃ places, places < 3 ∧ rank = magnitudeCount - 1 - places :=
        ⟨magnitudeCount - 1 - rank, by omega, by omega⟩
      exact scaledRank_written_last negative places hplaces

def rereadMagnitude (negative : Bool) (magnitude : Fin magnitudeCount) : Fin magnitudeCount :=
  ⟨(written negative magnitude).scaledRank, scaledRank_written_lt negative magnitude.isLt⟩

theorem reread_finite (negative : Bool) (magnitude : Fin magnitudeCount) :
    (finite negative magnitude).reread = .finite negative (rereadMagnitude negative magnitude) := by
  have hsign : (written negative magnitude).negative = negative := rfl
  change (written negative magnitude).scaled = _
  rw [Decimal.scaled, ofRank, dif_pos (scaledRank_written_lt negative magnitude.isLt), hsign,
    rereadMagnitude]

/-- A magnitude whose text has few digits and a small power of ten is read as it was written. -/
theorem rereadMagnitude_eq
    {magnitude : Fin magnitudeCount} (hdigits : (written negative magnitude).digits ≤ 2 ^ 53)
    (hexponent : (written negative magnitude).exponent.natAbs ≤ 22) :
    rereadMagnitude negative magnitude = magnitude := by
  apply Fin.ext
  have heq := Decimal.scaledRank_eq_nearestRank hdigits hexponent
  rwa [nearestRank_written] at heq

end FormCheck.Number
