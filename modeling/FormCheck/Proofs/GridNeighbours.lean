import FormCheck.Proofs.ExactValues
import Mathlib.Algebra.Order.Field.Power

/-!
# Neighbours on the grids of shortened decimals

Cutting places off the exact decimals leaves the points of a grid.  A magnitude has one
neighbour below it and one above it on each grid, and a decimal with no more digits than
a grid leaves is not between them: it is a point of the grid, or it is too small.  So when
such a decimal rounds to the magnitude, the neighbour on its side does as well.
-/

namespace FormCheck.Number

variable {rank digits other places : ℕ} {decimal : Decimal}

/-! ## Points -/

/-- A point of the grid that cuts off places of the exact decimals of magnitudes. -/
def gridValue (digits places : ℕ) : ℚ :=
  ((digits * Decimal.tenTo places : ℕ) : ℚ) / (Decimal.tenTo unitExponent : ℕ)

theorem cast_tenTo_pos (n : ℕ) : (0 : ℚ) < (Decimal.tenTo n : ℕ) :=
  Nat.cast_pos.mpr (Decimal.tenTo_pos n)

theorem gridValue_nonneg (digits places : ℕ) : 0 ≤ gridValue digits places :=
  div_nonneg (Nat.cast_nonneg _) (Nat.cast_nonneg _)

theorem gridValue_le_gridValue_iff {otherPlaces : ℕ} :
    gridValue digits places ≤ gridValue other otherPlaces ↔
      digits * Decimal.tenTo places ≤ other * Decimal.tenTo otherPlaces := by
  rw [gridValue, gridValue, div_le_div_iff_of_pos_right (cast_tenTo_pos _), Nat.cast_le]

theorem gridValue_add (digits other places : ℕ) :
    gridValue digits places + gridValue other places = gridValue (digits + other) places := by
  rw [gridValue, gridValue, gridValue, ← add_div, ← Nat.cast_add, ← Nat.add_mul]

theorem gridValue_exactDigits (rank : ℕ) : gridValue (exactDigits rank) 0 = value rank := by
  have hexact : ((exactDigits rank * twoTo unitExponent : ℕ) : ℚ) =
      ((units rank * Decimal.tenTo unitExponent : ℕ) : ℚ) := by
    rw [exactDigits_mul_twoTo]
  rw [Nat.cast_mul, Nat.cast_mul] at hexact
  rw [gridValue, value, Decimal.tenTo_zero, Nat.mul_one,
    div_eq_div_iff (cast_tenTo_pos _).ne' unit_pos.ne', hexact]

theorem gridValue_le_value_iff :
    gridValue digits places ≤ value rank ↔ digits * Decimal.tenTo places ≤ exactDigits rank := by
  rw [← gridValue_exactDigits, gridValue_le_gridValue_iff, Decimal.tenTo_zero, Nat.mul_one]

theorem value_le_gridValue_iff :
    value rank ≤ gridValue digits places ↔ exactDigits rank ≤ digits * Decimal.tenTo places := by
  rw [← gridValue_exactDigits, gridValue_le_gridValue_iff, Decimal.tenTo_zero, Nat.mul_one]

theorem magnitude_grid (negative : Bool) (digits places : ℕ) :
    (⟨negative, digits, (places : ℤ) - (unitExponent : ℕ)⟩ : Decimal).magnitude =
      gridValue digits places := by
  rw [Decimal.magnitude, gridValue]
  simp only
  rw [zpow_sub₀ (by norm_num), zpow_natCast, zpow_natCast, Nat.cast_mul,
    Decimal.cast_tenTo, Decimal.cast_tenTo, mul_div_assoc]

theorem readsBack_iff_rankOf :
    readsBack rank digits places = true ↔ rankOf (gridValue digits places) = rank := by
  rw [readsBack_iff, gridValue, rankOf_div _ (Decimal.tenTo_pos _)]

/-! ## Neighbours -/

/-- What is left of the exact digits of a magnitude when places are cut off. -/
def cut (rank places : ℕ) : ℕ :=
  exactDigits rank / Decimal.tenTo places

theorem below_le_exact (rank places : ℕ) :
    gridValue (cut rank places) places ≤ value rank := by
  rw [cut, gridValue_le_value_iff]
  exact Nat.div_mul_le_self _ _

theorem exact_le_above (rank places : ℕ) :
    value rank ≤ gridValue (cut rank places + 1) places := by
  rw [cut, value_le_gridValue_iff, Nat.succ_mul]
  exact (Nat.lt_div_mul_add (Decimal.tenTo_pos places)).le

theorem outside_of_coarse (hcoarse : (places : ℤ) - (unitExponent : ℕ) ≤ decimal.exponent) :
    decimal.magnitude ≤ gridValue (cut rank places) places ∨
      gridValue (cut rank places + 1) places ≤ decimal.magnitude := by
  cases decimal with
  | mk negative digits exponent =>
    obtain ⟨zeros, hzeros⟩ := Int.le.dest hcoarse
    simp only at hzeros
    -- With the zeros in the digits the decimal is a point of the grid.
    have hexponent : exponent = (zeros + places : ℕ) - (unitExponent : ℕ) := by
      rw [← hzeros]
      omega
    rw [hexponent, magnitude_grid, gridValue_le_gridValue_iff, gridValue_le_gridValue_iff,
      Decimal.tenTo_add, ← Nat.mul_assoc]
    rcases Nat.lt_or_ge (cut rank places) (digits * Decimal.tenTo zeros) with habove | hbelow
    · exact .inr (Nat.mul_le_mul_right _ habove)
    · exact .inl (Nat.mul_le_mul_right _ hbelow)

theorem tenTo_le_cut
    (hrank : rank ≠ 0) (hplaces : places < Text.digitCount (exactDigits rank)) :
    Decimal.tenTo (Text.digitCount (exactDigits rank) - 1 - places) ≤ cut rank places := by
  rw [cut, Nat.le_div_iff_mul_le (Decimal.tenTo_pos _), ← Decimal.tenTo_add,
    Nat.sub_add_cancel (Nat.le_sub_one_of_lt hplaces)]
  exact (tenTo_digitCount (exactDigits rank)).2 (exactDigits_ne_zero hrank)

theorem le_below_of_fine
    (hrank : rank ≠ 0) (hplaces : places < Text.digitCount (exactDigits rank))
    (hdigits : decimal.digits < Decimal.tenTo (Text.digitCount (exactDigits rank) - places))
    (hfine : decimal.exponent < (places : ℤ) - (unitExponent : ℕ)) :
    decimal.magnitude ≤ gridValue (cut rank places) places := by
  have hcut := tenTo_le_cut hrank hplaces
  generalize Text.digitCount (exactDigits rank) = count at *
  have hstep : Decimal.tenTo (count - places) = Decimal.tenTo (count - 1 - places) * 10 := by
    rw [show count - places = count - 1 - places + 1 by omega]
    exact Decimal.tenTo_add _ 1
  calc decimal.digits * (10 : ℚ) ^ decimal.exponent
      ≤ (Decimal.tenTo (count - places) : ℕ) * 10 ^ ((places : ℤ) - (unitExponent : ℕ) - 1) := by
        apply mul_le_mul (Nat.cast_le.mpr hdigits.le) _ (by positivity) (Nat.cast_nonneg _)
        exact zpow_le_zpow_right₀ (by norm_num) (by omega)
    _ = (Decimal.tenTo (count - 1 - places) : ℕ) * 10 ^ ((places : ℤ) - (unitExponent : ℕ)) := by
        rw [hstep, zpow_sub_one₀ (by norm_num)]
        push_cast
        ring
    _ = gridValue (Decimal.tenTo (count - 1 - places)) places := magnitude_grid false _ _
    _ ≤ gridValue (cut rank places) places :=
        gridValue_le_gridValue_iff.mpr (Nat.mul_le_mul_right _ hcut)

/-- A decimal with no more digits than a grid leaves is not between the neighbours. -/
theorem outside_neighbours
    (hrank : rank ≠ 0) (hplaces : places < Text.digitCount (exactDigits rank))
    (hdigits : decimal.digits < Decimal.tenTo (Text.digitCount (exactDigits rank) - places)) :
    decimal.magnitude ≤ gridValue (cut rank places) places ∨
      gridValue (cut rank places + 1) places ≤ decimal.magnitude := by
  rcases le_or_gt ((places : ℤ) - (unitExponent : ℕ)) decimal.exponent with hcoarse | hfine
  · exact outside_of_coarse hcoarse
  · exact .inl (le_below_of_fine hrank hplaces hdigits hfine)

/-- When a decimal that rounds to a magnitude is not between its neighbours on a grid, then the
neighbour on its side rounds to the magnitude as well. -/
theorem readsBack_neighbour
    (hrank : rank ≠ 0) (hplaces : places < Text.digitCount (exactDigits rank))
    (hdigits : decimal.digits < Decimal.tenTo (Text.digitCount (exactDigits rank) - places))
    (hrounds : decimal.nearestRank = rank) :
    readsBack rank (cut rank places) places = true ∧
        decimal.magnitude ≤ gridValue (cut rank places) places ∨
      readsBack rank (cut rank places + 1) places = true ∧
        gridValue (cut rank places + 1) places ≤ decimal.magnitude := by
  rw [Decimal.nearestRank_eq_rankOf] at hrounds
  rcases outside_neighbours hrank hplaces hdigits with hbelow | habove
  · left
    refine ⟨readsBack_iff_rankOf.mpr (le_antisymm ?_ ?_), hbelow⟩
    · exact (rankOf_mono (gridValue_nonneg _ _) (below_le_exact rank places)).trans_eq
        (rankOf_value rank)
    · exact hrounds.symm.trans_le (rankOf_mono decimal.magnitude_nonneg hbelow)
  · right
    refine ⟨readsBack_iff_rankOf.mpr (le_antisymm ?_ ?_), habove⟩
    · exact (rankOf_mono (gridValue_nonneg _ _) habove).trans_eq hrounds
    · exact (rankOf_value rank).symm.trans_le
        (rankOf_mono (value_nonneg rank) (exact_le_above rank places))

end FormCheck.Number
