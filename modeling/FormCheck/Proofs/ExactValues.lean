import FormCheck.Proofs.NumberArguments
import Mathlib.Tactic.FieldSimp

/-!
# Exact values

Decimals and magnitudes are fractions, and the magnitude nearest to a fraction depends on
the fraction alone.  Greater fractions have nearest magnitudes of greater ranks.  With the
sign taken into account, the number nearest to a fraction has a place on the line of units,
and these places are in the order of the fractions as well, from one infinity to the other.
-/

namespace FormCheck

/-- A fraction with a sign. -/
def withSign (negative : Bool) (q : ℚ) : ℚ :=
  if negative then -q else q

namespace Number

variable {rank other num den : ℕ} {p q : ℚ}

/-- The rank of the magnitude nearest to a fraction, which is taken without its sign. -/
def rankOf (q : ℚ) : ℕ :=
  nearestRank q.num.natAbs q.den

/-! ## Nearest magnitudes -/

theorem cast_natAbs_num (hq : 0 ≤ q) : (q.num.natAbs : ℚ) = q * q.den := by
  have hnum : ((q.num.natAbs : ℤ) : ℚ) = q.num := by
    rw [Int.natAbs_of_nonneg (Rat.num_nonneg.mpr hq)]
  rw [Int.cast_natCast] at hnum
  rw [hnum, Rat.mul_den_eq_num]

theorem rankOf_mono (hp : 0 ≤ p) (hle : p ≤ q) : rankOf p ≤ rankOf q := by
  apply nearestRank_mono p.den_pos q.den_pos
  rw [← Nat.cast_le (α := ℚ)]
  push_cast [cast_natAbs_num hp, cast_natAbs_num (hp.trans hle)]
  nlinarith [mul_le_mul_of_nonneg_right hle (by positivity : (0 : ℚ) ≤ p.den * q.den)]

theorem rankOf_div (num : ℕ) (hden : 0 < den) : rankOf ((num : ℚ) / den) = nearestRank num den := by
  have hpos : (0 : ℚ) < den := Nat.cast_pos.mpr hden
  apply nearestRank_congr (Rat.den_pos _) hden
  rw [← Nat.cast_inj (R := ℚ)]
  push_cast [cast_natAbs_num (div_nonneg num.cast_nonneg den.cast_nonneg)]
  field_simp

theorem rankOf_value (rank : ℕ) : rankOf (value rank) = rank := by
  rw [value, rankOf_div _ (twoTo_pos unitExponent)]
  exact nearestRank_of_units (twoTo_pos unitExponent) rfl

theorem value_le_value_iff : value rank ≤ value other ↔ rank ≤ other := by
  constructor
  · intro hle
    have hmono := rankOf_mono (value_nonneg rank) hle
    rwa [rankOf_value, rankOf_value] at hmono
  · intro hle
    by_contra hlt
    have hmono := rankOf_mono (value_nonneg other) (not_le.mp hlt).le
    rw [rankOf_value, rankOf_value] at hmono
    exact hlt (by rw [le_antisymm hle hmono])

theorem units_le_units_iff : units rank ≤ units other ↔ rank ≤ other := by
  have hvalues : value rank ≤ value other ↔ rank ≤ other := value_le_value_iff
  rwa [value, value, div_le_div_iff_of_pos_right unit_pos, Nat.cast_le] at hvalues

end Number

namespace Decimal

/-- What a decimal denotes without its sign. -/
def magnitude (decimal : Decimal) : ℚ :=
  decimal.digits * 10 ^ decimal.exponent

theorem cast_tenTo (n : ℕ) : ((tenTo n : ℕ) : ℚ) = 10 ^ n :=
  Nat.cast_pow 10 n

theorem magnitude_eq_div (decimal : Decimal) :
    decimal.magnitude =
      ((decimal.digits * tenTo decimal.exponent.toNat : ℕ) : ℚ) /
        (tenTo (-decimal.exponent).toNat : ℕ) := by
  have hsplit : decimal.exponent =
      (decimal.exponent.toNat : ℤ) - ((-decimal.exponent).toNat : ℤ) := by omega
  have hpower : (10 : ℚ) ^ decimal.exponent =
      10 ^ decimal.exponent.toNat / 10 ^ (-decimal.exponent).toNat := by
    conv_lhs => rw [hsplit]
    rw [zpow_sub₀ (by norm_num), zpow_natCast, zpow_natCast]
  rw [magnitude, hpower, Nat.cast_mul, cast_tenTo, cast_tenTo, mul_div_assoc]

theorem nearestRank_eq_rankOf (decimal : Decimal) :
    decimal.nearestRank = Number.rankOf decimal.magnitude := by
  rw [magnitude_eq_div, Number.rankOf_div _ (tenTo_pos _), nearestRank]

theorem magnitude_nonneg (decimal : Decimal) : 0 ≤ decimal.magnitude :=
  mul_nonneg (Nat.cast_nonneg _) (zpow_nonneg (by norm_num) _)

/-- What a decimal denotes. -/
def exact (decimal : Decimal) : ℚ :=
  withSign decimal.negative decimal.magnitude

end Decimal

namespace Number

/-! ## Places of nearest numbers -/

/-- The place of the number nearest to a fraction, on the line of units. -/
def placeOf (q : ℚ) : ℤ :=
  signed (decide (q < 0)) (units (min (rankOf |q|) magnitudeCount))

section Places

variable {p q : ℚ}

theorem rankOf_zero : rankOf 0 = 0 := by
  have hzero := rankOf_value 0
  rwa [value, units_eq_zero_iff.mpr rfl, Nat.cast_zero, zero_div] at hzero

theorem placeOf_of_nonneg (hq : 0 ≤ q) :
    placeOf q = units (min (rankOf q) magnitudeCount) := by
  rw [placeOf, decide_eq_false hq.not_gt, abs_of_nonneg hq, signed, if_neg Bool.false_ne_true]

theorem placeOf_of_nonpos (hq : q ≤ 0) :
    placeOf q = -units (min (rankOf (-q)) magnitudeCount) := by
  rcases hq.lt_or_eq with hneg | rfl
  · rw [placeOf, decide_eq_true hneg, abs_of_neg hneg, signed, if_pos rfl]
  · have hzero : units (min (rankOf 0) magnitudeCount) = 0 := by
      rw [rankOf_zero, Nat.zero_min]
      exact units_eq_zero_iff.mpr rfl
    rw [placeOf_of_nonneg le_rfl, neg_zero, hzero, Nat.cast_zero, neg_zero]

theorem placeOf_withSign (negative : Bool) (hq : 0 ≤ q) :
    placeOf (withSign negative q) = signed negative (units (min (rankOf q) magnitudeCount)) := by
  unfold withSign signed
  cases negative with
  | false =>
      rw [if_neg Bool.false_ne_true, if_neg Bool.false_ne_true, placeOf_of_nonneg hq]
  | true =>
      rw [if_pos rfl, if_pos rfl, placeOf_of_nonpos (neg_nonpos.mpr hq), neg_neg]

theorem units_min_rankOf_mono (hp : 0 ≤ p) (hle : p ≤ q) :
    units (min (rankOf p) magnitudeCount) ≤ units (min (rankOf q) magnitudeCount) :=
  units_le_units_iff.mpr (min_le_min_right _ (rankOf_mono hp hle))

theorem placeOf_mono (hle : p ≤ q) : placeOf p ≤ placeOf q := by
  rcases le_total 0 p with hp | hp
  · have hunits := units_min_rankOf_mono hp hle
    rw [placeOf_of_nonneg hp, placeOf_of_nonneg (hp.trans hle)]
    omega
  · rw [placeOf_of_nonpos hp]
    rcases le_total 0 q with hq | hq
    · rw [placeOf_of_nonneg hq]
      omega
    · have hunits := units_min_rankOf_mono (neg_nonneg.mpr hq) (neg_le_neg hle)
      rw [placeOf_of_nonpos hq]
      omega

theorem natAbs_placeOf_le (q : ℚ) : (placeOf q).natAbs ≤ units magnitudeCount := by
  rw [placeOf, natAbs_signed]
  exact units_le_units_iff.mpr (min_le_right _ _)

theorem position?_ofRank (negative : Bool) (rank : ℕ) :
    (ofRank negative rank).position? =
      some (signed negative (units (min rank magnitudeCount))) := by
  unfold ofRank
  split
  · next hrank => rw [position?, min_eq_left hrank.le]
  · next hrank => rw [position?, min_eq_right (not_lt.mp hrank)]

theorem position?_finite (negative : Bool) (magnitude : Fin magnitudeCount) :
    (finite negative magnitude).position? =
      some (placeOf (withSign negative (value magnitude))) := by
  rw [placeOf_withSign negative (value_nonneg _), rankOf_value, min_eq_left magnitude.isLt.le]
  rfl

theorem position?_toNumber (decimal : Decimal) :
    decimal.toNumber.position? = some (placeOf decimal.exact) := by
  rw [Decimal.toNumber_eq, position?_ofRank, Decimal.exact,
    placeOf_withSign _ decimal.magnitude_nonneg, Decimal.nearestRank_eq_rankOf]

end Places

end Number

end FormCheck
