import FormCheck.Proofs.CorrectRounding
import FormCheck.Proofs.GridNeighbours

/-!
# Fewest digits

No decimal that rounds to a magnitude has fewer digits than the one that is found by the
search through ever finer grids, and none with as many digits is nearer to the magnitude.
Both hold whichever way equally near digits are chosen.
-/

namespace FormCheck

/-! ## Trailing zeros -/

namespace Decimal

variable {negative : Bool} {digits : ℕ} {exponent : ℤ}

theorem magnitude_withoutTrailingZeros :
    (withoutTrailingZeros negative digits exponent).magnitude =
      (⟨negative, digits, exponent⟩ : Decimal).magnitude := by
  fun_induction withoutTrailingZeros negative digits exponent with
  | case1 digits exponent hzero ih =>
      have hdigits : (digits : ℚ) = (digits / 10 : ℕ) * 10 := by
        exact_mod_cast (Nat.div_mul_cancel (Nat.dvd_of_mod_eq_zero hzero.2)).symm
      rw [ih, magnitude, magnitude]
      simp only
      rw [zpow_add_one₀ (by norm_num), hdigits]
      ring
  | case2 digits exponent hzero => rfl

theorem digits_withoutTrailingZeros_mod (hdigits : digits ≠ 0) :
    (withoutTrailingZeros negative digits exponent).digits % 10 ≠ 0 := by
  fun_induction withoutTrailingZeros negative digits exponent with
  | case1 digits exponent hzero ih =>
      apply ih
      omega
  | case2 digits exponent hzero =>
      intro hlast
      exact hzero ⟨hdigits, hlast⟩

theorem digits_withoutTrailingZeros_tenTo (zeros : ℕ) :
    (withoutTrailingZeros negative (tenTo zeros) exponent).digits = 1 := by
  induction zeros generalizing exponent with
  | zero =>
      rw [withoutTrailingZeros, if_neg (by decide)]
      rfl
  | succ zeros ih =>
      have hsplit : tenTo (zeros + 1) = tenTo zeros * 10 := tenTo_add zeros 1
      have hpos := tenTo_pos zeros
      have hrest : tenTo (zeros + 1) / 10 = tenTo zeros := by omega
      rw [withoutTrailingZeros, if_pos (by omega), hrest]
      exact ih

end Decimal

namespace Number

variable {tie : Tie} {rank digits places : ℕ} {decimal : Decimal}

/-! ## The end of the search -/

/-- What the search for the digits of a magnitude ends with. -/
structure SearchEnd (tie : Tie) (rank digits places : ℕ) : Prop where
  digits_le : digits ≤ cut rank places + 1
  places_lt : places < Text.digitCount (exactDigits rank)
  le_places : ∀ grid < Text.digitCount (exactDigits rank),
    (shortened? tie rank grid).isSome = true → grid ≤ places
  found : digits = exactDigits rank ∧ places = 0 ∨ shortened? tie rank places = some digits

theorem exists_searchEnd (tie : Tie) (negative : Bool) (rank : ℕ) :
    ∃ digits places, SearchEnd tie rank digits places ∧
      shortest tie negative rank =
        Decimal.withoutTrailingZeros negative digits (places - (unitExponent : ℕ)) := by
  have hcount := digitCount_pos (exactDigits rank)
  have hdigits := (coarsest_spec tie rank (Text.digitCount (exactDigits rank) - 1)).2
  have hplaces := coarsest_le tie rank (Text.digitCount (exactDigits rank) - 1)
  have hgrids : ∀ grid ≤ Text.digitCount (exactDigits rank) - 1,
      (shortened? tie rank grid).isSome = true →
        grid ≤ (coarsest tie rank (Text.digitCount (exactDigits rank) - 1)).2 := by
    intro grid hgrid hsome
    exact le_coarsest hgrid hsome
  have hfound := coarsest_found tie rank (Text.digitCount (exactDigits rank) - 1)
  have hshortest := shortest_eq tie negative rank
  generalize coarsest tie rank (Text.digitCount (exactDigits rank) - 1) = search at *
  exact ⟨search.1, search.2, {
    digits_le := hdigits
    places_lt := (Nat.le_sub_one_iff_lt hcount).mp hplaces
    le_places := fun grid hgrid => hgrids grid (Nat.le_sub_one_of_lt hgrid)
    found := hfound }, hshortest⟩

namespace SearchEnd

/-- No decimal that rounds to the magnitude has fewer digits than the search leaves. -/
theorem digitCount_exact_le
    (hend : SearchEnd tie rank digits places) (hrank : rank ≠ 0)
    (hrounds : decimal.nearestRank = rank) :
    Text.digitCount (exactDigits rank) ≤ Text.digitCount decimal.digits + places := by
  by_contra hfewer
  have hcount := digitCount_pos decimal.digits
  have hgrid : Text.digitCount (exactDigits rank) - Text.digitCount decimal.digits <
      Text.digitCount (exactDigits rank) := by omega
  have hdigits : decimal.digits < Decimal.tenTo (Text.digitCount (exactDigits rank) -
      (Text.digitCount (exactDigits rank) - Text.digitCount decimal.digits)) := by
    rw [Nat.sub_sub_self (by omega)]
    exact (tenTo_digitCount decimal.digits).1
  have hneighbour := readsBack_neighbour hrank hgrid hdigits hrounds
  have hplaces := hend.le_places _ hgrid
    (isSome_shortened?_iff.mpr (hneighbour.imp And.left And.left))
  omega

theorem digits_le_tenTo (hend : SearchEnd tie rank digits places) :
    digits ≤ Decimal.tenTo (Text.digitCount (exactDigits rank) - places) := by
  have hcut : cut rank places < Decimal.tenTo (Text.digitCount (exactDigits rank) - places) := by
    rw [cut, Nat.div_lt_iff_lt_mul (Decimal.tenTo_pos _), ← Decimal.tenTo_add,
      Nat.sub_add_cancel hend.places_lt.le]
    exact (tenTo_digitCount (exactDigits rank)).1
  exact hend.digits_le.trans (Nat.succ_le_of_lt hcut)

/-- Without trailing zeros the digits are no more than the search leaves. -/
theorem digitCount_withoutTrailingZeros_le
    (hend : SearchEnd tie rank digits places) (negative : Bool) (exponent : ℤ) :
    Text.digitCount (Decimal.withoutTrailingZeros negative digits exponent).digits + places ≤
      Text.digitCount (exactDigits rank) := by
  have hplaces := hend.places_lt
  suffices hcount : Text.digitCount (Decimal.withoutTrailingZeros negative digits exponent).digits ≤
      Text.digitCount (exactDigits rank) - places by omega
  rcases hend.digits_le_tenTo.lt_or_eq with hfewer | hpower
  · exact (digitCount_mono Decimal.digits_withoutTrailingZeros_le).trans
      (digitCount_le (by omega) hfewer)
  · -- The neighbour above has one more digit only as a power of ten, of which one digit is left.
    rw [hpower, Decimal.digits_withoutTrailingZeros_tenTo]
    exact Nat.sub_pos_of_lt hplaces

end SearchEnd

/-! ## The distance -/

/-- The nearer neighbour is the one below unless the exact digits are above the middle, and the one
above unless they are below the middle. -/
theorem nearerNeighbour_spec (tie : Tie) (exact places : ℕ) :
    nearerNeighbour tie exact places = exact / Decimal.tenTo places ∧
        2 * exact ≤ (2 * (exact / Decimal.tenTo places) + 1) * Decimal.tenTo places ∨
      nearerNeighbour tie exact places = exact / Decimal.tenTo places + 1 ∧
        (2 * (exact / Decimal.tenTo places) + 1) * Decimal.tenTo places ≤ 2 * exact := by
  have hsplit := Nat.div_add_mod' exact (Decimal.tenTo places)
  have hmiddle : ∀ below step : ℕ, (2 * below + 1) * step = 2 * (below * step) + step := by
    intro below step
    ring
  rw [hmiddle]
  unfold nearerNeighbour
  simp only
  split
  · next hlower => exact .inl ⟨rfl, by omega⟩
  · split
    · next hupper => exact .inr ⟨rfl, by omega⟩
    · cases tie with
      | upward => exact .inr ⟨rfl, by omega⟩
      | toEven =>
          rcases Nat.mod_two_eq_zero_or_one (exact / Decimal.tenTo places) with heven | hodd
          · rw [heven]
            exact .inl ⟨rfl, by omega⟩
          · rw [hodd]
            exact .inr ⟨rfl, by omega⟩

theorem two_mul_value (rank : ℕ) : 2 * value rank = gridValue (2 * exactDigits rank) 0 := by
  rw [two_mul, two_mul, ← gridValue_add, gridValue_exactDigits]

theorem nearerNeighbour_of_middle (tie : Tie) (rank places : ℕ) :
    nearerNeighbour tie (exactDigits rank) places = cut rank places ∧
        2 * value rank ≤
          gridValue (cut rank places) places + gridValue (cut rank places + 1) places ∨
      nearerNeighbour tie (exactDigits rank) places = cut rank places + 1 ∧
        gridValue (cut rank places) places + gridValue (cut rank places + 1) places ≤
          2 * value rank := by
  rw [gridValue_add, ← Nat.add_assoc, ← Nat.two_mul, two_mul_value, gridValue_le_gridValue_iff,
    gridValue_le_gridValue_iff, Decimal.tenTo_zero, Nat.mul_one]
  exact nearerNeighbour_spec tie (exactDigits rank) places

/-- What is found on a grid is at most as far from the magnitude as each neighbour that reads
back. -/
theorem shortened?_nearest (hfound : shortened? tie rank places = some digits) :
    (readsBack rank (cut rank places) places = true →
      |gridValue digits places - value rank| ≤
        value rank - gridValue (cut rank places) places) ∧
    (readsBack rank (cut rank places + 1) places = true →
      |gridValue digits places - value rank| ≤
        gridValue (cut rank places + 1) places - value rank) := by
  have hbelow := below_le_exact rank places
  have habove := exact_le_above rank places
  have hnearer := nearerNeighbour_of_middle tie rank places
  unfold shortened? at hfound
  simp only at hfound
  rw [← cut] at hfound
  cases hreads : readsBack rank (cut rank places) places with
  | true =>
    cases hnext : readsBack rank (cut rank places + 1) places with
    | true =>
      rw [hreads, hnext] at hfound
      have hdigits : nearerNeighbour tie (exactDigits rank) places = digits :=
        Option.some.inj hfound
      rw [hdigits] at hnearer
      rcases hnearer with ⟨rfl, hmiddle⟩ | ⟨rfl, hmiddle⟩
      · rw [abs_sub_comm, abs_of_nonneg (sub_nonneg.mpr hbelow)]
        exact ⟨fun _ => le_rfl, fun _ => by linarith⟩
      · rw [abs_of_nonneg (sub_nonneg.mpr habove)]
        exact ⟨fun _ => by linarith, fun _ => le_rfl⟩
    | false =>
      rw [hreads, hnext] at hfound
      have hdigits : cut rank places = digits := Option.some.inj hfound
      rw [← hdigits, abs_sub_comm, abs_of_nonneg (sub_nonneg.mpr hbelow)]
      exact ⟨fun _ => le_rfl, fun hnever => absurd hnever Bool.false_ne_true⟩
  | false =>
    cases hnext : readsBack rank (cut rank places + 1) places with
    | true =>
      rw [hreads, hnext] at hfound
      have hdigits : cut rank places + 1 = digits := Option.some.inj hfound
      rw [← hdigits, abs_of_nonneg (sub_nonneg.mpr habove)]
      exact ⟨fun hnever => absurd hnever Bool.false_ne_true, fun _ => le_rfl⟩
    | false =>
      rw [hreads, hnext] at hfound
      cases hfound

theorem SearchEnd.nearest
    (hend : SearchEnd tie rank digits places) (hrank : rank ≠ 0)
    (hrounds : decimal.nearestRank = rank)
    (hcount : Text.digitCount decimal.digits + places ≤ Text.digitCount (exactDigits rank)) :
    |gridValue digits places - value rank| ≤ |decimal.magnitude - value rank| := by
  rcases hend.found with ⟨hdigits, hplaces⟩ | hfound
  · rw [hdigits, hplaces, gridValue_exactDigits, sub_self, abs_zero]
    exact abs_nonneg _
  · have hdigits : decimal.digits <
        Decimal.tenTo (Text.digitCount (exactDigits rank) - places) :=
      (tenTo_digitCount decimal.digits).1.trans_le (Decimal.tenTo_le_tenTo (by omega))
    have hnearest := shortened?_nearest hfound
    rcases readsBack_neighbour hrank hend.places_lt hdigits hrounds with
      ⟨hreads, hbelow⟩ | ⟨hreads, habove⟩
    · calc |gridValue digits places - value rank|
          ≤ value rank - gridValue (cut rank places) places :=
            hnearest.1 hreads
        _ ≤ value rank - decimal.magnitude := sub_le_sub_left hbelow (value rank)
        _ ≤ |decimal.magnitude - value rank| := by
            rw [abs_sub_comm]
            exact le_abs_self _
    · calc |gridValue digits places - value rank|
          ≤ gridValue (cut rank places + 1) places - value rank :=
            hnearest.2 hreads
        _ ≤ decimal.magnitude - value rank := sub_le_sub_right habove (value rank)
        _ ≤ |decimal.magnitude - value rank| := le_abs_self _

/-! ## Shortest decimals -/

theorem digits_shortest_mod (tie : Tie) (negative : Bool) (hrank : rank ≠ 0) :
    (shortest tie negative rank).digits % 10 ≠ 0 := by
  have hrounds := nearestRank_shortest tie negative rank
  rw [shortest_eq] at hrounds ⊢
  apply Decimal.digits_withoutTrailingZeros_mod
  intro hzero
  rw [hzero, Decimal.nearestRank_withoutTrailingZeros, Decimal.nearestRank, Nat.zero_mul,
    nearestRank_zero (Decimal.tenTo_pos _)] at hrounds
  exact hrank hrounds.symm

end Number

open Number in
/-- A decimal that rounds to a finite number has the fewest digits, and among the decimals with as
few digits none is nearer to the number. -/
structure Decimal.IsShortest
    (decimal : Decimal) (negative : Bool) (magnitude : Fin magnitudeCount) : Prop where
  rounds : decimal.RoundsTo negative magnitude
  fewest : ∀ other : Decimal, other.RoundsTo negative magnitude →
    Text.digitCount decimal.digits ≤ Text.digitCount other.digits
  nearest : ∀ other : Decimal, other.RoundsTo negative magnitude →
    Text.digitCount other.digits = Text.digitCount decimal.digits →
    |decimal.exact - withSign negative (value magnitude)| ≤
      |other.exact - withSign negative (value magnitude)|

namespace Number

variable {magnitude : Fin magnitudeCount}

theorem abs_withSign_sub (negative : Bool) (p q : ℚ) :
    |withSign negative p - withSign negative q| = |p - q| := by
  unfold withSign
  cases negative with
  | false => rfl
  | true =>
      rw [if_pos rfl, if_pos rfl, neg_sub_neg, abs_sub_comm]

theorem isShortest_shortest (tie : Tie) (negative : Bool) (hmagnitude : magnitude.val ≠ 0) :
    (shortest tie negative magnitude).IsShortest negative magnitude := by
  have hnearestRank := nearestRank_shortest tie negative magnitude
  have hnegative := negative_shortest tie negative magnitude
  obtain ⟨digits, places, hend, hshortest⟩ := exists_searchEnd tie negative magnitude
  have hvalue : (shortest tie negative magnitude).magnitude = gridValue digits places := by
    rw [hshortest, Decimal.magnitude_withoutTrailingZeros, magnitude_grid]
  have hcount := hend.digitCount_withoutTrailingZeros_le negative (places - (unitExponent : ℕ))
  rw [← hshortest] at hcount
  constructor
  · exact Decimal.roundsTo_iff.mpr ⟨hnegative, hnearestRank⟩
  · intro other hother
    have hleast := hend.digitCount_exact_le hmagnitude (Decimal.roundsTo_iff.mp hother).2
    omega
  · intro other hother hdigits
    have hrounds := (Decimal.roundsTo_iff.mp hother).2
    rw [Decimal.exact, Decimal.exact, hother.sign, hnegative, abs_withSign_sub, abs_withSign_sub,
      hvalue]
    apply hend.nearest hmagnitude hrounds
    omega

end Number

end FormCheck
