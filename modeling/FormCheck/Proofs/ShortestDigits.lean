import FormCheck.Number.Shortest
import FormCheck.Proofs.NearestRank

/-!
# Shortest digits read back

The digits that are written for a number are found by a search through ever finer
grids.  Wherever the search ends, the decimal that it gives rounds to the number.
It ends with seventeen digits at the latest: a grid that fine has a point so near to
the number that it rounds to it.
-/

namespace FormCheck

/-! ## Decimals as fractions -/

namespace Decimal

theorem tenTo_pos (n : ℕ) : 0 < tenTo n := Nat.pow_pos (by decide)

theorem tenTo_zero : tenTo 0 = 1 := rfl

theorem tenTo_add (m n : ℕ) : tenTo (m + n) = tenTo m * tenTo n := Nat.pow_add 10 m n

theorem tenTo_le_tenTo {m n : ℕ} (hle : m ≤ n) : tenTo m ≤ tenTo n :=
  Nat.pow_le_pow_right (by decide) hle

theorem lt_of_tenTo_lt {m n : ℕ} (hlt : tenTo m < tenTo n) : m < n :=
  (Nat.pow_lt_pow_iff_right (by decide : 1 < 10)).mp hlt

/-- The rank of the magnitude nearest to a decimal, however large its exponent is. -/
def nearestRank (decimal : Decimal) : ℕ :=
  Number.nearestRank (decimal.digits * tenTo decimal.exponent.toNat)
    (tenTo (-decimal.exponent).toNat)

theorem nearestRank_of_nonneg {decimal : Decimal} (hwhole : 0 ≤ decimal.exponent) :
    decimal.nearestRank =
      Number.nearestRank (decimal.digits * tenTo decimal.exponent.toNat) 1 := by
  rw [nearestRank, show (-decimal.exponent).toNat = 0 by omega, tenTo_zero]

theorem nearestRank_of_neg {decimal : Decimal} (hfraction : decimal.exponent < 0) :
    decimal.nearestRank =
      Number.nearestRank decimal.digits (tenTo (-decimal.exponent).toNat) := by
  rw [nearestRank, show decimal.exponent.toNat = 0 by omega, tenTo_zero, Nat.mul_one]

theorem digits_ne_zero {decimal : Decimal} (hrank : decimal.nearestRank ≠ 0) :
    decimal.digits ≠ 0 := by
  intro hzero
  rw [nearestRank, hzero, Nat.zero_mul, Number.nearestRank_zero (tenTo_pos _)] at hrank
  exact hrank rfl

section

variable {negative : Bool} {digits raised lowered : ℕ} {exponent : ℤ}

/-- The exponent can be split in any way into a power that multiplies and one that divides. -/
theorem nearestRank_eq_of_exponent (hexponent : exponent = raised - lowered) :
    nearestRank ⟨negative, digits, exponent⟩ =
      Number.nearestRank (digits * tenTo raised) (tenTo lowered) := by
  apply Number.nearestRank_congr (tenTo_pos _) (tenTo_pos _)
  simp only
  rw [Nat.mul_assoc, Nat.mul_assoc, ← tenTo_add, ← tenTo_add]
  congr 2
  omega

/-- Zeros at the end of the digits can be moved to the exponent. -/
theorem nearestRank_mul_tenTo (negative : Bool) (digits zeros : ℕ) (exponent : ℤ) :
    nearestRank ⟨negative, digits * tenTo zeros, exponent⟩ =
      nearestRank ⟨negative, digits, exponent + zeros⟩ := by
  have hleft : exponent = exponent.toNat - ((-exponent).toNat : ℤ) := by omega
  have hright : exponent + zeros = ↑(zeros + exponent.toNat) - ((-exponent).toNat : ℤ) := by
    omega
  rw [nearestRank_eq_of_exponent hleft, nearestRank_eq_of_exponent hright, tenTo_add,
    Nat.mul_assoc]

theorem nearestRank_withoutTrailingZeros :
    (withoutTrailingZeros negative digits exponent).nearestRank =
      nearestRank ⟨negative, digits, exponent⟩ := by
  fun_induction withoutTrailingZeros negative digits exponent with
  | case1 digits exponent hzero ih =>
      have hmoved := nearestRank_mul_tenTo negative (digits / 10) 1 exponent
      have hdigits : digits / 10 * tenTo 1 = digits := by
        change digits / 10 * 10 = digits
        omega
      rw [hdigits] at hmoved
      rw [ih, hmoved]
      rfl
  | case2 digits exponent hzero => rfl

theorem negative_withoutTrailingZeros :
    (withoutTrailingZeros negative digits exponent).negative = negative := by
  fun_induction withoutTrailingZeros negative digits exponent with
  | case1 digits exponent hzero ih => exact ih
  | case2 digits exponent hzero => rfl

theorem exponent_le_withoutTrailingZeros :
    exponent ≤ (withoutTrailingZeros negative digits exponent).exponent := by
  fun_induction withoutTrailingZeros negative digits exponent with
  | case1 digits exponent hzero ih => omega
  | case2 digits exponent hzero => exact le_rfl

theorem digits_withoutTrailingZeros_le :
    (withoutTrailingZeros negative digits exponent).digits ≤ digits := by
  fun_induction withoutTrailingZeros negative digits exponent with
  | case1 digits exponent hzero ih => exact ih.trans (Nat.div_le_self digits 10)
  | case2 digits exponent hzero => exact le_rfl

end

end Decimal

namespace Number

variable {tie : Tie} {rank places digits : ℕ}

/-! ## Digits that read back -/

def fiveTo (n : ℕ) : ℕ :=
  Nat.pow 5 n

theorem fiveTo_pos (n : ℕ) : 0 < fiveTo n := Nat.pow_pos (by decide)

theorem tenTo_eq_mul (n : ℕ) : Decimal.tenTo n = twoTo n * fiveTo n :=
  Nat.mul_pow 2 5 n

theorem exactDigits_eq_mul (rank : ℕ) : exactDigits rank = units rank * fiveTo unitExponent := by
  rw [exactDigits, fiveTo]

theorem exactDigits_ne_zero (hrank : rank ≠ 0) : exactDigits rank ≠ 0 := by
  rw [exactDigits_eq_mul]
  exact Nat.mul_ne_zero (units_pos hrank).ne' (fiveTo_pos unitExponent).ne'

/-- Multiplied with the unit, the exact digits are the magnitude over the denominator of the
decimals on the grids. -/
theorem exactDigits_mul_twoTo (rank : ℕ) :
    exactDigits rank * twoTo unitExponent = units rank * Decimal.tenTo unitExponent := by
  rw [exactDigits_eq_mul, tenTo_eq_mul]
  ring

theorem readsBack_iff :
    readsBack rank digits places = true ↔
      nearestRank (digits * Decimal.tenTo places) (Decimal.tenTo unitExponent) = rank := by
  unfold readsBack
  exact decide_eq_true_iff

theorem readsBack_exactDigits (rank : ℕ) : readsBack rank (exactDigits rank) 0 = true := by
  rw [readsBack_iff]
  apply nearestRank_of_units (Decimal.tenTo_pos unitExponent)
  rw [← exactDigits_mul_twoTo]
  simp [Decimal.tenTo]

/-- Digits read back when their relative distance from the exact ones is less than two to the
power -54. -/
theorem readsBack_of_close
    (hbelow : 2 ^ 54 * exactDigits rank <
      2 ^ 54 * (digits * Decimal.tenTo places) + exactDigits rank)
    (habove : 2 ^ 54 * (digits * Decimal.tenTo places) <
      2 ^ 54 * exactDigits rank + exactDigits rank) :
    readsBack rank digits places = true := by
  rw [readsBack_iff]
  have hunit := twoTo_pos unitExponent
  apply nearestRank_eq_of_close (Decimal.tenTo_pos unitExponent)
  · rw [← exactDigits_mul_twoTo]
    nlinarith [Nat.mul_lt_mul_of_pos_right hbelow hunit]
  · rw [← exactDigits_mul_twoTo]
    nlinarith [Nat.mul_lt_mul_of_pos_right habove hunit]

/-! ## The search -/

theorem nearerNeighbour_eq_or (tie : Tie) (exact places : ℕ) :
    nearerNeighbour tie exact places = exact / Decimal.tenTo places ∨
      nearerNeighbour tie exact places = exact / Decimal.tenTo places + 1 := by
  unfold nearerNeighbour
  simp only
  split
  · exact .inl rfl
  · split
    · exact .inr rfl
    · cases tie with
      | upward => exact .inr rfl
      | toEven =>
          simp only
          omega

theorem neighbourReadingBack?_eq_some {exact : ℕ} {below above : Bool}
    (hfound : neighbourReadingBack? tie exact places below above = some digits) :
    below = true ∧ digits = exact / Decimal.tenTo places ∨
      above = true ∧ digits = exact / Decimal.tenTo places + 1 := by
  cases below with
  | true =>
      cases above with
      | true =>
          rw [← Option.some.inj hfound]
          rcases nearerNeighbour_eq_or tie exact places with heq | heq
          · exact .inl ⟨rfl, heq⟩
          · exact .inr ⟨rfl, heq⟩
      | false => exact .inl ⟨rfl, (Option.some.inj hfound).symm⟩
  | false =>
      cases above with
      | true => exact .inr ⟨rfl, (Option.some.inj hfound).symm⟩
      | false => cases hfound

/-- The digits that are found on a grid are a neighbour of the exact ones and read back. -/
theorem shortened?_eq_some (hfound : shortened? tie rank places = some digits) :
    readsBack rank digits places = true ∧
      digits ≤ exactDigits rank / Decimal.tenTo places + 1 := by
  unfold shortened? at hfound
  simp only at hfound
  rcases neighbourReadingBack?_eq_some hfound with ⟨hreads, hdigits⟩ | ⟨hreads, hdigits⟩
  · rw [hdigits]
    exact ⟨hreads, Nat.le_succ _⟩
  · rw [hdigits]
    exact ⟨hreads, le_rfl⟩

theorem isSome_neighbourReadingBack? (tie : Tie) (exact places : ℕ) (below above : Bool) :
    (neighbourReadingBack? tie exact places below above).isSome = (below || above) := by
  cases below <;> cases above <;> rfl

/-- There are digits to be found on a grid when one of the two neighbours reads back. -/
theorem isSome_shortened?_iff :
    (shortened? tie rank places).isSome = true ↔
      readsBack rank (exactDigits rank / Decimal.tenTo places) places = true ∨
        readsBack rank (exactDigits rank / Decimal.tenTo places + 1) places = true := by
  unfold shortened?
  simp only [isSome_neighbourReadingBack?, Bool.or_eq_true]

theorem coarsest_zero (tie : Tie) (rank : ℕ) : coarsest tie rank 0 = (exactDigits rank, 0) := by
  rw [coarsest]

theorem coarsest_succ_of_some (hfound : shortened? tie rank (places + 1) = some digits) :
    coarsest tie rank (places + 1) = (digits, places + 1) := by
  rw [coarsest, hfound, Option.map_some, Option.getD_some]

theorem coarsest_succ_of_none (hnone : shortened? tie rank (places + 1) = none) :
    coarsest tie rank (places + 1) = coarsest tie rank places := by
  rw [coarsest, hnone, Option.map_none, Option.getD_none]

/-- What the search gives reads back, and it is at most one more than what is left of the exact
digits. -/
theorem coarsest_spec (tie : Tie) (rank places : ℕ) :
    readsBack rank (coarsest tie rank places).1 (coarsest tie rank places).2 = true ∧
      (coarsest tie rank places).1 ≤
        exactDigits rank / Decimal.tenTo (coarsest tie rank places).2 + 1 := by
  induction places with
  | zero =>
      rw [coarsest_zero]
      refine ⟨readsBack_exactDigits rank, ?_⟩
      rw [Decimal.tenTo_zero, Nat.div_one]
      exact Nat.le_succ _
  | succ places ih =>
      cases hfound : shortened? tie rank (places + 1) with
      | some digits =>
          rw [coarsest_succ_of_some hfound]
          exact shortened?_eq_some hfound
      | none =>
          rw [coarsest_succ_of_none hfound]
          exact ih

theorem coarsest_le (tie : Tie) (rank places : ℕ) : (coarsest tie rank places).2 ≤ places := by
  induction places with
  | zero => rw [coarsest_zero]
  | succ places ih =>
      cases hfound : shortened? tie rank (places + 1) with
      | some digits => rw [coarsest_succ_of_some hfound]
      | none =>
          rw [coarsest_succ_of_none hfound]
          exact ih.trans (Nat.le_succ _)

/-- The search ends with all digits or with what is found on a grid. -/
theorem coarsest_found (tie : Tie) (rank places : ℕ) :
    (coarsest tie rank places).1 = exactDigits rank ∧ (coarsest tie rank places).2 = 0 ∨
      shortened? tie rank (coarsest tie rank places).2 = some (coarsest tie rank places).1 := by
  induction places with
  | zero =>
      left
      rw [coarsest_zero]
      exact ⟨rfl, rfl⟩
  | succ places ih =>
      cases hfound : shortened? tie rank (places + 1) with
      | some digits =>
          right
          rw [coarsest_succ_of_some hfound]
          exact hfound
      | none =>
          rw [coarsest_succ_of_none hfound]
          exact ih

/-- The search does not go past a grid on which there are digits to be found. -/
theorem le_coarsest {grid : ℕ} (hgrid : grid ≤ places)
    (hfound : (shortened? tie rank grid).isSome = true) :
    grid ≤ (coarsest tie rank places).2 := by
  induction places with
  | zero =>
      rw [coarsest_zero]
      exact hgrid
  | succ places ih =>
      cases hnext : shortened? tie rank (places + 1) with
      | some digits =>
          rw [coarsest_succ_of_some hnext]
          exact hgrid
      | none =>
          rw [coarsest_succ_of_none hnext]
          apply ih
          have hne : grid ≠ places + 1 := by
            rintro rfl
            rw [hnext] at hfound
            cases hfound
          omega

/-! ## Seventeen digits are enough -/

/-- A grid that leaves seventeen digits has digits that read back. -/
theorem isSome_shortened?_of_seventeen
    (hlong : Decimal.tenTo (places + 16) ≤ exactDigits rank) :
    (shortened? tie rank places).isSome = true := by
  rw [isSome_shortened?_iff]
  have hstep := Decimal.tenTo_pos places
  have hsplit := Nat.div_add_mod' (exactDigits rank) (Decimal.tenTo places)
  have hrest := Nat.mod_lt (exactDigits rank) hstep
  rw [Decimal.tenTo_add] at hlong
  have hsixteen : Decimal.tenTo 16 = 10 ^ 16 := rfl
  rw [hsixteen] at hlong
  -- The nearer neighbour is half a step away at most, and a step is at most `10 ^ -16` of the
  -- exact digits.
  rcases Nat.lt_or_ge (Decimal.tenTo places) (2 * (exactDigits rank % Decimal.tenTo places))
    with hupper | hlower
  · right
    apply readsBack_of_close
    · rw [Nat.succ_mul]
      omega
    · rw [Nat.succ_mul]
      omega
  · left
    apply readsBack_of_close
    · omega
    · omega

theorem digitCount_pos (n : ℕ) : 0 < Text.digitCount n :=
  Nat.length_toDigits_pos

theorem digitCount_le {n count : ℕ} (hcount : 0 < count) (hn : n < Decimal.tenTo count) :
    Text.digitCount n ≤ count :=
  (Nat.length_toDigits_le_iff (by decide) hcount).mpr hn

theorem tenTo_digitCount (n : ℕ) :
    n < Decimal.tenTo (Text.digitCount n) ∧
      (n ≠ 0 → Decimal.tenTo (Text.digitCount n - 1) ≤ n) := by
  have hpos := digitCount_pos n
  constructor
  · exact (Nat.length_toDigits_le_iff (by decide) hpos).mp le_rfl
  · intro hne
    by_cases hone : Text.digitCount n - 1 = 0
    · rw [hone]
      exact Nat.pos_of_ne_zero hne
    · by_contra hlt
      have hle := digitCount_le (Nat.pos_of_ne_zero hone) (Nat.lt_of_not_le hlt)
      omega

theorem digitCount_mono {m n : ℕ} (hle : m ≤ n) : Text.digitCount m ≤ Text.digitCount n :=
  digitCount_le (digitCount_pos n) (hle.trans_lt (tenTo_digitCount n).1)

theorem shortest_eq (tie : Tie) (negative : Bool) (rank : ℕ) :
    shortest tie negative rank =
      Decimal.withoutTrailingZeros negative
        (coarsest tie rank (Text.digitCount (exactDigits rank) - 1)).1
        ((coarsest tie rank (Text.digitCount (exactDigits rank) - 1)).2 - (unitExponent : ℤ)) := by
  rw [shortest]

/-- The search cuts off all places but seventeen, or more. -/
theorem digitCount_le_coarsest (tie : Tie) (rank : ℕ) :
    Text.digitCount (exactDigits rank) ≤
      (coarsest tie rank (Text.digitCount (exactDigits rank) - 1)).2 + 17 := by
  by_cases hshort : Text.digitCount (exactDigits rank) ≤ 17
  · omega
  · rw [← Nat.sub_le_iff_le_add]
    apply le_coarsest (by omega)
    apply isSome_shortened?_of_seventeen
    rw [show Text.digitCount (exactDigits rank) - 17 + 16 =
      Text.digitCount (exactDigits rank) - 1 by omega]
    apply (tenTo_digitCount (exactDigits rank)).2
    intro hzero
    rw [hzero] at hshort
    exact hshort (by decide)

theorem digits_shortest_le (tie : Tie) (negative : Bool) (rank : ℕ) :
    (shortest tie negative rank).digits ≤ 10 ^ 17 := by
  have hupper := (tenTo_digitCount (exactDigits rank)).1
  have hgrid := digitCount_le_coarsest tie rank
  have hspec := (coarsest_spec tie rank (Text.digitCount (exactDigits rank) - 1)).2
  rw [shortest_eq]
  apply Decimal.digits_withoutTrailingZeros_le.trans
  generalize (coarsest tie rank (Text.digitCount (exactDigits rank) - 1)).2 = places at hgrid hspec
  generalize exactDigits rank = exact at hupper hgrid hspec
  have hcut : exact / Decimal.tenTo places < 10 ^ 17 := by
    rw [Nat.div_lt_iff_lt_mul (Decimal.tenTo_pos places)]
    calc exact < Decimal.tenTo (Text.digitCount exact) := hupper
      _ ≤ Decimal.tenTo (17 + places) := Decimal.tenTo_le_tenTo (by omega)
      _ = 10 ^ 17 * Decimal.tenTo places := Decimal.tenTo_add 17 places
  omega

/-- The exact decimal of a positive magnitude is long. -/
theorem lt_digitCount_exactDigits (hrank : rank ≠ 0) :
    749 < Text.digitCount (exactDigits rank) := by
  have hfive : Decimal.tenTo 749 ≤ fiveTo unitExponent := by decide +kernel
  have hlong : Decimal.tenTo 749 ≤ exactDigits rank := by
    rw [exactDigits_eq_mul]
    exact hfive.trans (Nat.le_mul_of_pos_left _ (units_pos hrank))
  exact Decimal.lt_of_tenTo_lt (hlong.trans_lt (tenTo_digitCount (exactDigits rank)).1)

theorem exponent_shortest_ge (tie : Tie) (negative : Bool) (hrank : rank ≠ 0) :
    -341 ≤ (shortest tie negative rank).exponent := by
  have hcount := lt_digitCount_exactDigits hrank
  have hgrid := digitCount_le_coarsest tie rank
  have hplaces : ∀ count cut : ℕ, 749 < count → count ≤ cut + 17 →
      -341 ≤ (cut : ℤ) - unitExponent := by
    intro count cut hlong hcut
    simp only [unitExponent]
    omega
  have hcut := hplaces _ _ hcount hgrid
  rw [shortest_eq]
  exact hcut.trans Decimal.exponent_le_withoutTrailingZeros

theorem negative_shortest (tie : Tie) (negative : Bool) (rank : ℕ) :
    (shortest tie negative rank).negative = negative := by
  rw [shortest_eq, Decimal.negative_withoutTrailingZeros]

theorem nearestRank_shortest (tie : Tie) (negative : Bool) (rank : ℕ) :
    (shortest tie negative rank).nearestRank = rank := by
  rw [shortest_eq, Decimal.nearestRank_withoutTrailingZeros, Decimal.nearestRank_eq_of_exponent rfl]
  exact readsBack_iff.mp (coarsest_spec tie rank _).1

end Number

end FormCheck
