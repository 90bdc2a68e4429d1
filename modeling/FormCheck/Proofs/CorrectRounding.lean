import FormCheck.Proofs.ExactValues

/-!
# Correct rounding

The magnitude that is chosen for a fraction is the nearest one, and of two equally near ones
the one of even rank.  No other magnitude has this property, so it says exactly when a
decimal rounds to a number, without any reference to blocks.  The place of infinity and the
magnitudes beyond it are compared with as well: a fraction that is nearer to one of them,
or half way to the first of them, does not round to a finite number.
-/

namespace FormCheck

namespace Number

variable {rank other num den : ℕ} {q : ℚ}

/-! ## Middles between magnitudes -/

/-- The parity of a rank is the one of its place in a block. -/
theorem block_mod_two (block place : ℕ) : (block * blockSize + place) % 2 = place % 2 := by
  have hsize : block * blockSize = 2 * (block * 2 ^ 51) := by
    simp only [blockSize]
    ring
  omega

theorem middle_above (hden : 0 < den) (hlt : nearestRank num den < other) :
    2 * (num * twoTo unitExponent) ≤ (units (nearestRank num den) + units other) * den ∧
      (2 * (num * twoTo unitExponent) = (units (nearestRank num den) + units other) * den →
        nearestRank num den % 2 = 0) := by
  obtain ⟨block, hblock⟩ := exists_inBlock num hden
  obtain ⟨hupper, -, heven, -⟩ :=
    roundDiv_spec (num * twoTo unitExponent) (Nat.mul_pos hden (twoTo_pos block))
  have hfirst := hblock.le_place hden
  rw [hblock.units_nearestRank hden]
  rw [hblock.nearestRank_eq hden] at hlt ⊢
  rw [block_mod_two]
  generalize roundDiv _ _ = place at *
  generalize num * twoTo unitExponent = scaled at *
  obtain ⟨next, rfl⟩ : ∃ next, other = block * blockSize + next :=
    Nat.exists_eq_add_of_le (by omega)
  have hnext : next * twoTo block ≤ units (block * blockSize + next) := le_units_block (by omega)
  have hmiddle : 2 * (place * (den * twoTo block)) + den * twoTo block ≤
      (place * twoTo block + units (block * blockSize + next)) * den := by
    have hplace : (place + 1) * twoTo block ≤ next * twoTo block :=
      Nat.mul_le_mul_right _ (by omega)
    nlinarith
  exact ⟨hupper.trans hmiddle, fun hequal => heven (by omega)⟩

theorem middle_below (hden : 0 < den) (hlt : other < nearestRank num den) :
    (units (nearestRank num den) + units other) * den ≤ 2 * (num * twoTo unitExponent) ∧
      ((units (nearestRank num den) + units other) * den = 2 * (num * twoTo unitExponent) →
        nearestRank num den % 2 = 0) := by
  obtain ⟨block, hblock⟩ := exists_inBlock num hden
  obtain ⟨-, hlower, -, heven⟩ :=
    roundDiv_spec (num * twoTo unitExponent) (Nat.mul_pos hden (twoTo_pos block))
  have hinBlock := (inBlock_iff.mp hblock).1
  have hfirst := hblock.le_place hden
  have hlast := hblock.place_le hden
  have hunits : units other < units (nearestRank num den) :=
    not_le.mp fun hle => not_le.mpr hlt (units_le_units_iff.mp hle)
  rw [hblock.units_nearestRank hden] at hunits ⊢
  rw [hblock.nearestRank_eq hden] at hlt ⊢
  rw [block_mod_two]
  generalize roundDiv _ _ = place at *
  generalize num * twoTo unitExponent = scaled at *
  by_cases hstart : block ≠ 0 ∧ place = 2 ^ 52
  · -- The first magnitude of a later block is not above the fraction.
    have hscaled := hinBlock.resolve_left hstart.1
    have hsum : (place * twoTo block + units other) * den < 2 * (2 ^ 52 * (den * twoTo block)) := by
      rw [hstart.2] at hunits ⊢
      nlinarith
    exact ⟨by omega, fun hequal => by omega⟩
  · -- The magnitude before it is at the distance of the block.
    obtain ⟨previous, rfl⟩ : ∃ previous, place = previous + 1 := by
      refine Nat.exists_eq_succ_of_ne_zero ?_
      rintro rfl
      have hzero : block = 0 := by omega
      rw [hzero] at hlt
      omega
    have hprevious : units (block * blockSize + previous) = previous * twoTo block :=
      units_block (by omega) (by omega)
    have hbefore : units other ≤ previous * twoTo block := by
      rw [← hprevious, units_le_units_iff]
      omega
    have hmiddle : ((previous + 1) * twoTo block + units other) * den + den * twoTo block ≤
        2 * ((previous + 1) * (den * twoTo block)) := by
      nlinarith
    exact ⟨by omega, fun hequal => heven (by omega)⟩

section Distances

variable {x y : ℚ}

theorem abs_sub_le_of_middle_ge (hxy : x < y) (hmiddle : 2 * q ≤ x + y) :
    |x - q| ≤ |y - q| ∧ (|x - q| = |y - q| → 2 * q = x + y) := by
  have hy : 0 ≤ y - q := by linarith
  rw [abs_of_nonneg hy]
  constructor
  · exact abs_le.mpr ⟨by linarith, by linarith⟩
  · intro hequal
    rcases (abs_eq hy).mp hequal with hsame | hopposite
    · linarith
    · linarith

theorem abs_sub_le_of_middle_le (hyx : y < x) (hmiddle : x + y ≤ 2 * q) :
    |x - q| ≤ |y - q| ∧ (|x - q| = |y - q| → x + y = 2 * q) := by
  have hmirrored := abs_sub_le_of_middle_ge (neg_lt_neg hyx)
    (by linarith : 2 * -q ≤ -x + -y)
  rw [neg_sub_neg, neg_sub_neg, abs_sub_comm q x, abs_sub_comm q y] at hmirrored
  exact ⟨hmirrored.1, fun hequal => by linarith [hmirrored.2 hequal]⟩

/-- What lies between two points at the same distance is nearer than they are. -/
theorem abs_sub_lt_of_between {z : ℚ} (hxz : x < z) (hzy : z < y) (hequal : |x - q| = |y - q|) :
    |z - q| < |x - q| := by
  rcases abs_cases (x - q) with ⟨hx, hxsign⟩ | ⟨hx, hxsign⟩
  · have hy := le_abs_self (y - q)
    linarith
  · rw [hx, abs_lt]
    rw [hx] at hequal
    have hy := le_abs_self (y - q)
    constructor
    · linarith
    · linarith

end Distances

/-! ## Nearest magnitudes -/

theorem value_lt_value_iff : value rank < value other ↔ rank < other := by
  rw [← not_le, ← not_le, value_le_value_iff]

/-- No magnitude is nearer to a fraction than the one of this rank, and if another one is as near,
then the rank is even. -/
structure Nearest (rank : ℕ) (q : ℚ) : Prop where
  le : ∀ other, |value rank - q| ≤ |value other - q|
  even : ∀ other, other ≠ rank → |value rank - q| = |value other - q| → rank % 2 = 0

theorem rankOf_nearest_of_ne (hq : 0 ≤ q) (hother : other ≠ rankOf q) :
    |value (rankOf q) - q| ≤ |value other - q| ∧
      (|value (rankOf q) - q| = |value other - q| → rankOf q % 2 = 0) := by
  have hscale : (0 : ℚ) < q.den * twoTo unitExponent :=
    mul_pos (Nat.cast_pos.mpr q.den_pos) unit_pos
  have htwice : ((2 * (q.num.natAbs * twoTo unitExponent) : ℕ) : ℚ) =
      2 * q * (q.den * twoTo unitExponent) := by
    push_cast [cast_natAbs_num hq]
    ring
  have hsum : (((units (rankOf q) + units other) * q.den : ℕ) : ℚ) =
      (value (rankOf q) + value other) * (q.den * twoTo unitExponent) := by
    push_cast [units_eq_value_mul]
    ring
  rcases hother.lt_or_gt with hbelow | habove
  · obtain ⟨hmiddle, heven⟩ := middle_below q.den_pos hbelow
    rw [← rankOf, ← Nat.cast_le (α := ℚ), htwice, hsum, mul_le_mul_iff_left₀ hscale] at hmiddle
    have hdistance := abs_sub_le_of_middle_le (value_lt_value_iff.mpr hbelow) hmiddle
    refine hdistance.imp_right fun hequal hfar => heven ?_
    rw [← rankOf, ← Nat.cast_inj (R := ℚ), htwice, hsum, hequal hfar]
  · obtain ⟨hmiddle, heven⟩ := middle_above q.den_pos habove
    rw [← rankOf, ← Nat.cast_le (α := ℚ), htwice, hsum, mul_le_mul_iff_left₀ hscale] at hmiddle
    have hdistance := abs_sub_le_of_middle_ge (value_lt_value_iff.mpr habove) hmiddle
    refine hdistance.imp_right fun hequal hfar => heven ?_
    rw [← rankOf, ← Nat.cast_inj (R := ℚ), htwice, hsum, hequal hfar]

theorem nearest_rankOf (hq : 0 ≤ q) : Nearest (rankOf q) q where
  le other := by
    by_cases hother : other = rankOf q
    · rw [hother]
    · exact (rankOf_nearest_of_ne hq hother).1
  even other hother := (rankOf_nearest_of_ne hq hother).2

theorem Nearest.not_lt (hrank : Nearest rank q) (hother : Nearest other q) : ¬ rank < other := by
  intro hlt
  have hequal := le_antisymm (hrank.le other) (hother.le rank)
  have hrankEven := hrank.even other hlt.ne' hequal
  have hotherEven := hother.even rank hlt.ne hequal.symm
  -- Between two even ranks there is a third one, and its magnitude would be nearer.
  have hbetween := abs_sub_lt_of_between (value_lt_value_iff.mpr (Nat.lt_succ_self rank))
    (value_lt_value_iff.mpr (by omega : rank + 1 < other)) hequal
  exact (hrank.le (rank + 1)).not_gt hbetween

theorem nearest_iff (hq : 0 ≤ q) : Nearest rank q ↔ rankOf q = rank := by
  constructor
  · intro hnearest
    have hrank := nearest_rankOf hq
    exact le_antisymm (not_lt.mp (hnearest.not_lt hrank)) (not_lt.mp (hrank.not_lt hnearest))
  · intro hrank
    rw [← hrank]
    exact nearest_rankOf hq

end Number

/-! ## Decimals that round to a number -/

namespace Decimal

open Number

variable {decimal : Decimal} {negative : Bool} {magnitude : Fin magnitudeCount}

/-- A decimal rounds to a finite number when it has its sign and no magnitude is nearer, where half
way between two magnitudes the one of even rank counts as the nearer one. -/
structure RoundsTo (decimal : Decimal) (negative : Bool) (magnitude : Fin magnitudeCount) :
    Prop where
  sign : decimal.negative = negative
  nearest : Nearest magnitude decimal.magnitude

theorem roundsTo_iff :
    decimal.RoundsTo negative magnitude ↔
      decimal.negative = negative ∧ decimal.nearestRank = magnitude := by
  rw [nearestRank_eq_rankOf, ← nearest_iff decimal.magnitude_nonneg]
  exact ⟨fun hrounds => ⟨hrounds.sign, hrounds.nearest⟩, fun hrounds => ⟨hrounds.1, hrounds.2⟩⟩

end Decimal

end FormCheck
