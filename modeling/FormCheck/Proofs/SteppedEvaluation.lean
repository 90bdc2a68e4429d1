import FormCheck.Number.Scaling
import FormCheck.Proofs.ShortestDigits
import Mathlib.Algebra.Order.Ring.Rat
import Mathlib.Tactic.IntervalCases
import Mathlib.Tactic.NormNum
import Mathlib.Tactic.Positivity

/-!
# Decimals that are evaluated in steps

The digits of a decimal and a power of ten are rounded, and then their product or
their quotient.  With few digits and a small power nothing is rounded before the
last step, so the result is the number nearest to the decimal.  In general each
rounding changes the fraction that is rounded last by a small factor, and a few
such factors move its rank by a few places.
-/

namespace FormCheck

namespace Number

/-! ## Whole numbers that are not rounded -/

section Exact

variable {n significand exponent : ℕ}

theorem units_nearestRank_significand (hsignificand : significand < 2 ^ 53) (exponent : ℕ) :
    units (nearestRank (significand * twoTo exponent) 1) =
      significand * twoTo exponent * twoTo unitExponent := by
  obtain ⟨block, hblock⟩ := exists_inBlock (significand * twoTo exponent) Nat.one_pos
  have hscaled : significand * twoTo exponent * twoTo unitExponent =
      significand * twoTo (exponent + unitExponent) := by
    rw [Nat.mul_assoc, ← twoTo_add]
  have hdvd : 1 * twoTo block ∣ significand * twoTo exponent * twoTo unitExponent := by
    rw [Nat.one_mul, hscaled]
    have hle : block ≤ exponent + unitExponent := by
      rcases hblock.first with hfirst | hfirst
      · omega
      · have hlt : twoTo (52 + block) < twoTo (53 + (exponent + unitExponent)) := by
          rw [Nat.mul_one, hscaled] at hfirst
          rw [twoTo_add 53]
          exact hfirst.trans_lt (Nat.mul_lt_mul_of_pos_right hsignificand (twoTo_pos _))
        have hexponents := (Nat.pow_lt_pow_iff_right (a := 2) (by decide)).mp hlt
        omega
    exact (Nat.pow_dvd_pow 2 hle).trans (Nat.dvd_mul_left _ _)
  have hunits := units_nearestRank_of_dvd Nat.one_pos hblock hdvd
  rwa [Nat.mul_one] at hunits

theorem units_nearestRank_of_le (hn : n ≤ 2 ^ 53) :
    units (nearestRank n 1) = n * twoTo unitExponent := by
  by_cases hlast : n = 2 ^ 53
  · have hunits := units_nearestRank_significand (by decide : 1 < 2 ^ 53) 53
    rwa [Nat.one_mul, show twoTo 53 = n from hlast.symm] at hunits
  · have hunits := units_nearestRank_significand (Nat.lt_of_le_of_ne hn hlast) 0
    rwa [show twoTo 0 = 1 from rfl, Nat.mul_one] at hunits

theorem units_tenRank (exponent : ℕ) (hexponent : exponent ≤ 22) :
    units (tenRank exponent) = Decimal.tenTo exponent * twoTo unitExponent := by
  have hfive : fiveTo exponent < 2 ^ 53 :=
    (Nat.pow_le_pow_right (by decide) hexponent).trans_lt (by decide : 5 ^ 22 < 2 ^ 53)
  have hunits := units_nearestRank_significand hfive exponent
  unfold tenRank
  rwa [tenTo_eq_mul, Nat.mul_comm (twoTo exponent)]

end Exact

/-! ## Nearness up to some roundings -/

/-- No rounding of a fraction that has all its binary digits changes it by a greater factor. -/
def roundingFactor : ℚ := 1 + 1 / 2 ^ 53 + 4 / 2 ^ 106

/-- Two fractions that differ by a factor for each of some roundings at most. -/
structure Near (roundings : ℕ) (x y : ℚ) : Prop where
  le : x ≤ y * roundingFactor ^ roundings
  ge : y ≤ x * roundingFactor ^ roundings

def value (rank : ℕ) : ℚ :=
  units rank / twoTo unitExponent

section Near

variable {m n num den other otherDen rank bits : ℕ} {x y z u v : ℚ}

theorem roundingFactor_pow_pos (n : ℕ) : 0 < roundingFactor ^ n :=
  pow_pos (by norm_num [roundingFactor]) n

namespace Near

theorem trans (hxy : Near m x y) (hyz : Near n y z) : Near (m + n) x z := by
  constructor
  · calc x ≤ y * roundingFactor ^ m := hxy.le
      _ ≤ z * roundingFactor ^ n * roundingFactor ^ m :=
          mul_le_mul_of_nonneg_right hyz.le (roundingFactor_pow_pos m).le
      _ = z * roundingFactor ^ (m + n) := by ring
  · calc z ≤ y * roundingFactor ^ n := hyz.ge
      _ ≤ x * roundingFactor ^ m * roundingFactor ^ n :=
          mul_le_mul_of_nonneg_right hxy.ge (roundingFactor_pow_pos n).le
      _ = x * roundingFactor ^ (m + n) := by ring

theorem mul
    (hxy : Near m x y) (huv : Near n u v) (hx : 0 ≤ x) (hy : 0 ≤ y) (hu : 0 ≤ u) (hv : 0 ≤ v) :
    Near (m + n) (x * u) (y * v) := by
  constructor
  · calc x * u ≤ y * roundingFactor ^ m * (v * roundingFactor ^ n) :=
          mul_le_mul hxy.le huv.le hu (mul_nonneg hy (roundingFactor_pow_pos m).le)
      _ = y * v * roundingFactor ^ (m + n) := by ring
  · calc y * v ≤ x * roundingFactor ^ m * (u * roundingFactor ^ n) :=
          mul_le_mul hxy.ge huv.ge hv (mul_nonneg hx (roundingFactor_pow_pos m).le)
      _ = x * u * roundingFactor ^ (m + n) := by ring

theorem inv (h : Near n x y) (hx : 0 < x) (hy : 0 < y) : Near n x⁻¹ y⁻¹ := by
  constructor
  · rw [inv_mul_eq_div, inv_eq_one_div, div_le_div_iff₀ hx hy, one_mul, mul_comm]
    exact h.ge
  · rw [inv_mul_eq_div, inv_eq_one_div, div_le_div_iff₀ hy hx, one_mul, mul_comm]
    exact h.le

theorem div
    (hxy : Near m x y) (huv : Near n u v) (hx : 0 ≤ x) (hy : 0 ≤ y) (hu : 0 < u) (hv : 0 < v) :
    Near (m + n) (x / u) (y / v) := by
  rw [div_eq_mul_inv, div_eq_mul_inv]
  exact hxy.mul (huv.inv hu hv) hx hy (inv_nonneg.mpr hu.le) (inv_nonneg.mpr hv.le)

end Near

theorem unit_pos : (0 : ℚ) < twoTo unitExponent :=
  Nat.cast_pos.mpr (twoTo_pos unitExponent)

theorem value_nonneg (rank : ℕ) : 0 ≤ value rank :=
  div_nonneg (Nat.cast_nonneg _) unit_pos.le

theorem value_pos (hrank : rank ≠ 0) : 0 < value rank :=
  div_pos (Nat.cast_pos.mpr (units_pos hrank)) unit_pos

theorem units_eq_value_mul (rank : ℕ) : (units rank : ℚ) = value rank * twoTo unitExponent :=
  (div_mul_cancel₀ _ unit_pos.ne').symm

/-- The relative distance of the magnitude nearest to a fraction, in fractions. -/
theorem value_nearestRank_close
    (hbits : bits ≤ 52) (hden : 0 < den) (hlarge : twoTo bits * den ≤ num * twoTo unitExponent) :
    2 ^ (bits + 1) * value (nearestRank num den) ≤ (2 ^ (bits + 1) + 1) * (num / den) ∧
      2 ^ (bits + 1) * (num / den : ℚ) ≤
        2 ^ (bits + 1) * value (nearestRank num den) + num / den := by
  obtain ⟨hupper, hlower⟩ := units_nearestRank_close hbits hden hlarge
  have hden' : (0 : ℚ) < den := Nat.cast_pos.mpr hden
  have hscale : (0 : ℚ) < den * twoTo unitExponent := mul_pos hden' unit_pos
  have hnum : (num : ℚ) = num / den * den := (div_mul_cancel₀ _ hden'.ne').symm
  have hpower : (twoTo (bits + 1) : ℚ) = 2 ^ (bits + 1) := Nat.cast_pow 2 (bits + 1)
  generalize (num : ℚ) / den = fraction at *
  rw [← Nat.cast_le (α := ℚ)] at hupper hlower
  push_cast at hupper hlower
  rw [units_eq_value_mul, hnum, hpower] at hupper hlower
  constructor
  · apply le_of_mul_le_mul_right _ hscale
    linarith
  · apply le_of_mul_le_mul_right _ hscale
    linarith

theorem near_value_nearestRank
    (hden : 0 < den) (hlarge : twoTo 52 * den ≤ num * twoTo unitExponent) :
    Near 1 (value (nearestRank num den)) (num / den) := by
  obtain ⟨hupper, hlower⟩ := value_nearestRank_close le_rfl hden hlarge
  have hnonneg : (0 : ℚ) ≤ num / den := div_nonneg (Nat.cast_nonneg _) (Nat.cast_nonneg _)
  have hvalue := value_nonneg (nearestRank num den)
  constructor
  · rw [pow_one, roundingFactor]
    linarith
  · rw [pow_one, roundingFactor]
    linarith

/-- A fraction that has lost two of its binary digits below the units counts as four roundings. -/
theorem near_value_nearestRank_of_short
    (hden : 0 < den) (hlarge : twoTo 50 * den ≤ num * twoTo unitExponent) :
    Near 4 (value (nearestRank num den)) (num / den) := by
  obtain ⟨hupper, hlower⟩ := value_nearestRank_close (by decide) hden hlarge
  have hnonneg : (0 : ℚ) ≤ num / den := div_nonneg (Nat.cast_nonneg _) (Nat.cast_nonneg _)
  have hvalue := value_nonneg (nearestRank num den)
  have hfactor : 1 + 4 / 2 ^ 53 + 18 / 2 ^ 106 ≤ roundingFactor ^ 4 := by
    norm_num [roundingFactor]
  constructor
  · have hgrow := mul_le_mul_of_nonneg_left hfactor hnonneg
    linarith
  · have hgrow := mul_le_mul_of_nonneg_left hfactor hvalue
    linarith

/-! ## Nearness of ranks -/

theorem roundingFactor_pow_le {roundings : ℕ} (hfew : roundings ≤ 7) :
    roundingFactor ^ roundings ≤ 1 + (roundings + 1 / 2) / 2 ^ 53 := by
  interval_cases roundings <;> norm_num [roundingFactor]

/-- A place of a block is not further away than its number of distances. -/
theorem nearestRank_le_of_le_place
    {block place : ℕ} (hden : 0 < den) (hfirst : block = 0 ∨ 2 ^ 52 ≤ place)
    (hle : num * twoTo unitExponent ≤ place * twoTo block * den) :
    nearestRank num den ≤ block * blockSize + place := by
  have hunits := Nat.mul_le_mul_right den (le_units_block hfirst)
  calc nearestRank num den
      ≤ nearestRank (units (block * blockSize + place)) (twoTo unitExponent) :=
        nearestRank_mono hden (twoTo_pos unitExponent) (hle.trans hunits)
    _ = block * blockSize + place := nearestRank_of_units (twoTo_pos unitExponent) rfl

/-- A fraction in units is at most half a distance above its place, and not beyond its block. -/
theorem InBlock.cast_le
    {block : ℕ} (hden : 0 < den) (hblock : InBlock num den block) :
    (num / den : ℚ) * twoTo unitExponent ≤
        (roundDiv (num * twoTo unitExponent) (den * twoTo block) + 1 / 2) * twoTo block ∧
      (num / den : ℚ) * twoTo unitExponent ≤ 2 ^ 53 * twoTo block := by
  obtain ⟨hround, -, -, -⟩ :=
    roundDiv_spec (num * twoTo unitExponent) (Nat.mul_pos hden (twoTo_pos block))
  have hlast := (inBlock_iff.mp hblock).2
  generalize roundDiv (num * twoTo unitExponent) (den * twoTo block) = place at *
  have hden' : (0 : ℚ) < den := Nat.cast_pos.mpr hden
  have hnum : (num : ℚ) = num / den * den := (div_mul_cancel₀ _ hden'.ne').symm
  generalize (num : ℚ) / den = x at *
  rw [← Nat.cast_le (α := ℚ)] at hround
  rw [← Nat.cast_lt (α := ℚ)] at hlast
  push_cast at hround hlast
  rw [hnum] at hround hlast
  constructor
  · apply le_of_mul_le_mul_right _ hden'
    linarith
  · apply le_of_mul_le_mul_right _ hden'
    linarith

/-- A few roundings of a fraction move its rank by one place each at most, and its own rounding
by one more. -/
theorem nearestRank_le_add_of_le
    {roundings : ℕ} (hden : 0 < den) (hotherDen : 0 < otherDen) (hfew : roundings ≤ 7)
    (hle : (num / den : ℚ) ≤ other / otherDen * roundingFactor ^ roundings) :
    nearestRank num den ≤ nearestRank other otherDen + (roundings + 1) := by
  obtain ⟨block, hblock⟩ := exists_inBlock other hotherDen
  have hplace := hblock.le_place hotherDen
  obtain ⟨hhalf, hend⟩ := hblock.cast_le hotherDen
  rw [hblock.nearestRank_eq hotherDen, Nat.add_assoc]
  generalize roundDiv (other * twoTo unitExponent) (otherDen * twoTo block) = place at *
  apply nearestRank_le_of_le_place hden (hplace.imp_right fun h => h.trans (Nat.le_add_right _ _))
  have hden' : (0 : ℚ) < den := Nat.cast_pos.mpr hden
  have hnum : (num : ℚ) = num / den * den := (div_mul_cancel₀ _ hden'.ne').symm
  have hnonneg : (0 : ℚ) ≤ other / otherDen := div_nonneg (Nat.cast_nonneg _) (Nat.cast_nonneg _)
  generalize (other : ℚ) / otherDen = y at *
  have hsteps : (roundings + 1 / 2 : ℚ) * (y * twoTo unitExponent / 2 ^ 53) ≤
      (roundings + 1 / 2) * twoTo block := by
    apply mul_le_mul_of_nonneg_left _ (by positivity)
    rw [div_le_iff₀ (by norm_num)]
    linarith
  have hmoved : (num / den : ℚ) * twoTo unitExponent ≤ (place + (roundings + 1)) * twoTo block := by
    calc (num / den : ℚ) * twoTo unitExponent
        ≤ y * (1 + (roundings + 1 / 2) / 2 ^ 53) * twoTo unitExponent := by
          apply mul_le_mul_of_nonneg_right _ unit_pos.le
          exact hle.trans (mul_le_mul_of_nonneg_left (roundingFactor_pow_le hfew) hnonneg)
      _ = y * twoTo unitExponent +
            (roundings + 1 / 2) * (y * twoTo unitExponent / 2 ^ 53) := by ring
      _ ≤ (place + 1 / 2) * twoTo block + (roundings + 1 / 2) * twoTo block :=
          add_le_add hhalf hsteps
      _ = (place + (roundings + 1)) * twoTo block := by ring
  rw [← Nat.cast_le (α := ℚ)]
  push_cast
  rw [hnum]
  linarith [mul_le_mul_of_nonneg_right hmoved hden'.le]

/-- Two ranks that are at most some places apart. -/
def WithinPlaces (places rank other : ℕ) : Prop :=
  rank ≤ other + places ∧ other ≤ rank + places

theorem WithinPlaces.mono {places more other : ℕ} (h : WithinPlaces places rank other)
    (hmore : places ≤ more) : WithinPlaces more rank other :=
  ⟨h.1.trans (Nat.add_le_add_left hmore other), h.2.trans (Nat.add_le_add_left hmore rank)⟩

theorem withinPlaces_of_near
    (roundings : ℕ) (hfew : roundings ≤ 7) (hden : 0 < den) (hotherDen : 0 < otherDen)
    (hnear : Near roundings (num / den) (other / otherDen)) :
    WithinPlaces (roundings + 1) (nearestRank num den) (nearestRank other otherDen) :=
  ⟨nearestRank_le_add_of_le hden hotherDen hfew hnear.le,
    nearestRank_le_add_of_le hotherDen hden hfew hnear.ge⟩

end Near

/-! ## The steps of an evaluation -/

section Steps

variable {digits exponent significand power : ℕ}

theorem near_value_digits (hdigits : digits ≠ 0) :
    Near 1 (value (nearestRank digits 1)) digits := by
  have hlarge : twoTo 52 * 1 ≤ digits * twoTo unitExponent := by
    have hpower : twoTo 52 ≤ twoTo unitExponent := twoTo_le_twoTo (by decide)
    rw [Nat.mul_one]
    exact hpower.trans (Nat.le_mul_of_pos_left _ (Nat.pos_of_ne_zero hdigits))
  have hnear := near_value_nearestRank Nat.one_pos hlarge
  rwa [Nat.cast_one, div_one] at hnear

theorem near_value_tenRank (exponent : ℕ) :
    Near 1 (value (tenRank exponent)) (Decimal.tenTo exponent : ℕ) :=
  near_value_digits (Decimal.tenTo_pos exponent).ne'

theorem nearestRank_ne_zero (hdigits : digits ≠ 0) : nearestRank digits 1 ≠ 0 := by
  intro hzero
  have hle := (near_value_digits hdigits).ge
  rw [hzero, value, units_eq_zero_iff.mpr rfl, Nat.cast_zero, zero_div, zero_mul] at hle
  exact hdigits (Nat.cast_eq_zero.mp (le_antisymm hle (Nat.cast_nonneg digits)))

/-- The fraction from which a product is rounded. -/
theorem cast_product (rank power : ℕ) :
    ((units rank * units power : ℕ) : ℚ) / (twoTo (2 * unitExponent) : ℕ) =
      value rank * value power := by
  rw [Nat.two_mul, twoTo_add, Nat.cast_mul, Nat.cast_mul, value, value, div_mul_div_comm]

/-- The fraction from which a quotient is rounded. -/
theorem cast_quotient (rank power : ℕ) :
    (units rank : ℚ) / units power = value rank / value power :=
  (div_div_div_cancel_right₀ unit_pos.ne' _ _).symm

theorem tenRank_ne_zero (exponent : ℕ) : tenRank exponent ≠ 0 :=
  nearestRank_ne_zero (Decimal.tenTo_pos exponent).ne'

theorem raisedRank_close (hdigits : digits ≠ 0) (hexponent : exponent ≤ lastTenExponent) :
    WithinPlaces 3 (raisedRank (nearestRank digits 1) exponent)
      (nearestRank (digits * Decimal.tenTo exponent) 1) := by
  rw [raisedRank, if_pos hexponent, productRank]
  apply withinPlaces_of_near 2 (by decide) (twoTo_pos _) Nat.one_pos
  have hnear := (near_value_digits hdigits).mul (near_value_tenRank exponent)
    (value_nonneg _) (Nat.cast_nonneg _) (value_nonneg _) (Nat.cast_nonneg _)
  rwa [cast_product, Nat.cast_one, div_one, Nat.cast_mul]

theorem loweredRank_close (hdigits : digits ≠ 0) (hexponent : exponent ≤ lastTenExponent) :
    WithinPlaces 3 (loweredRank (nearestRank digits 1) exponent)
      (nearestRank digits (Decimal.tenTo exponent)) := by
  rw [loweredRank, if_pos hexponent, quotientRank]
  apply withinPlaces_of_near 2 (by decide) (units_pos (tenRank_ne_zero exponent))
    (Decimal.tenTo_pos exponent)
  have hnear := (near_value_digits hdigits).div (near_value_tenRank exponent)
    (value_nonneg _) (Nat.cast_nonneg _) (value_pos (tenRank_ne_zero exponent))
    (Nat.cast_pos.mpr (Decimal.tenTo_pos exponent))
  rwa [cast_quotient]

/-- The first of two divisions leaves at least 51 of the binary digits. -/
theorem first_quotient_large (hdigits : digits ≠ 0) :
    twoTo 50 * units (tenRank lastTenExponent) ≤
      units (nearestRank digits 1) * twoTo unitExponent := by
  have hpower : 3 * (twoTo 50 * units (tenRank lastTenExponent)) ≤
      2 * twoTo unitExponent * twoTo unitExponent := by decide +kernel
  have hsignificand : 2 * twoTo unitExponent ≤ 3 * units (nearestRank digits 1) := by
    have hone : (1 : ℚ) ≤ digits := Nat.one_le_cast.mpr (Nat.pos_of_ne_zero hdigits)
    have hclose := (near_value_digits hdigits).ge
    have hvalue := value_nonneg (nearestRank digits 1)
    have hfactor : roundingFactor ^ 1 ≤ 3 / 2 := by norm_num [roundingFactor]
    have hthirds : 2 ≤ 3 * value (nearestRank digits 1) := by
      linarith [mul_le_mul_of_nonneg_left hfactor hvalue]
    rw [← Nat.cast_le (α := ℚ)]
    push_cast
    rw [units_eq_value_mul]
    linarith [mul_le_mul_of_nonneg_right hthirds unit_pos.le]
  nlinarith [Nat.mul_le_mul_right (twoTo unitExponent) hsignificand]

/-- Two divisions round four times; the first quotient can lose two binary digits besides. -/
theorem loweredRank_close_of_two
    (hdigits : digits ≠ 0) (hlarge : lastTenExponent < exponent)
    (hexponent : exponent ≤ 2 * lastTenExponent) :
    WithinPlaces 8 (loweredRank (nearestRank digits 1) exponent)
      (nearestRank digits (Decimal.tenTo exponent)) := by
  have hrest : exponent - lastTenExponent ≤ lastTenExponent := by omega
  rw [loweredRank, if_neg (Nat.not_le_of_lt hlarge), if_neg (nearestRank_ne_zero hdigits),
    loweredRank, if_pos hrest, quotientRank]
  have hfirst := near_value_nearestRank_of_short (units_pos (tenRank_ne_zero lastTenExponent))
    (first_quotient_large hdigits)
  have hpower := Nat.cast_pos (α := ℚ).mpr (Decimal.tenTo_pos lastTenExponent)
  have hdivided := (near_value_digits hdigits).div (near_value_tenRank lastTenExponent)
    (value_nonneg _) (Nat.cast_nonneg _) (value_pos (tenRank_ne_zero _)) hpower
  rw [cast_quotient] at hfirst
  have hquotient := (hfirst.trans hdivided).div (near_value_tenRank (exponent - lastTenExponent))
    (value_nonneg _) (div_nonneg (Nat.cast_nonneg _) hpower.le) (value_pos (tenRank_ne_zero _))
    (Nat.cast_pos.mpr (Decimal.tenTo_pos _))
  rw [div_div, ← Nat.cast_mul, ← Decimal.tenTo_add, Nat.add_sub_cancel' hlarge.le] at hquotient
  apply withinPlaces_of_near 7 (by decide) (units_pos (tenRank_ne_zero _))
    (Decimal.tenTo_pos exponent)
  rw [cast_quotient]
  exact hquotient

end Steps

end Number

/-! ## Evaluated decimals -/

namespace Decimal

open Number

variable {decimal : Decimal}

theorem scaledRank_of_nonneg (hwhole : 0 ≤ decimal.exponent) :
    decimal.scaledRank =
      raisedRank (Number.nearestRank decimal.digits 1) decimal.exponent.toNat := by
  unfold scaledRank
  simp only
  rw [if_pos hwhole]

theorem scaledRank_of_neg (hfraction : decimal.exponent < 0) :
    decimal.scaledRank =
      loweredRank (Number.nearestRank decimal.digits 1) (-decimal.exponent).toNat := by
  unfold scaledRank
  simp only
  rw [if_neg (Int.not_le.mpr hfraction)]

/-- A decimal with few digits and a small power of ten is only rounded once. -/
theorem scaledRank_eq_nearestRank
    (hdigits : decimal.digits ≤ 2 ^ 53) (hexponent : decimal.exponent.natAbs ≤ 22) :
    decimal.scaledRank = decimal.nearestRank := by
  have hsignificand := units_nearestRank_of_le hdigits
  rcases lt_or_ge decimal.exponent 0 with hfraction | hwhole
  · have hpower := units_tenRank (-decimal.exponent).toNat (by omega)
    rw [scaledRank_of_neg hfraction, nearestRank_of_neg hfraction, loweredRank,
      if_pos (by simp only [lastTenExponent]; omega), quotientRank, hsignificand, hpower]
    apply nearestRank_congr (Nat.mul_pos (tenTo_pos _) (twoTo_pos unitExponent)) (tenTo_pos _)
    ring
  · have hpower := units_tenRank decimal.exponent.toNat (by omega)
    rw [scaledRank_of_nonneg hwhole, nearestRank_of_nonneg hwhole, raisedRank,
      if_pos (by simp only [lastTenExponent]; omega), productRank, hsignificand, hpower]
    apply nearestRank_congr (twoTo_pos _) Nat.one_pos
    rw [Nat.two_mul, twoTo_add]
    ring

theorem scaledRank_close_of_nonneg
    (hdigits : decimal.digits ≠ 0) (hwhole : 0 ≤ decimal.exponent)
    (hgreatest : decimal.exponent ≤ lastTenExponent) :
    WithinPlaces 3 decimal.scaledRank decimal.nearestRank := by
  rw [scaledRank_of_nonneg hwhole, nearestRank_of_nonneg hwhole]
  exact raisedRank_close hdigits (by omega)

/-- A decimal that is evaluated in steps lies a few places from its nearest number at most. -/
theorem scaledRank_close
    (hdigits : decimal.digits ≠ 0) (hleast : -(2 * lastTenExponent) ≤ decimal.exponent)
    (hgreatest : decimal.exponent ≤ lastTenExponent) :
    WithinPlaces 8 decimal.scaledRank decimal.nearestRank := by
  rcases lt_or_ge decimal.exponent 0 with hfraction | hwhole
  · rw [scaledRank_of_neg hfraction, nearestRank_of_neg hfraction]
    rcases le_or_gt (-decimal.exponent).toNat lastTenExponent with hsmall | hlarge
    · exact (loweredRank_close hdigits hsmall).mono (by decide)
    · exact loweredRank_close_of_two hdigits hlarge (by omega)
  · exact (scaledRank_close_of_nonneg hdigits hwhole hgreatest).mono (by decide)

theorem scaledRank_of_digits_eq_zero (hdigits : decimal.digits = 0) : decimal.scaledRank = 0 := by
  have hzero : Number.nearestRank decimal.digits 1 = 0 := by
    rw [hdigits, nearestRank_zero Nat.one_pos]
  have hunits : units 0 = 0 := units_eq_zero_iff.mpr rfl
  rcases lt_or_ge decimal.exponent 0 with hfraction | hwhole
  · rw [scaledRank_of_neg hfraction, hzero, loweredRank, quotientRank, hunits,
      nearestRank_zero (units_pos (tenRank_ne_zero _)), if_pos rfl, ite_self]
  · rw [scaledRank_of_nonneg hwhole, hzero, raisedRank, productRank, hunits, Nat.zero_mul,
      nearestRank_zero (twoTo_pos _), if_pos rfl, ite_self]

end Decimal

end FormCheck
