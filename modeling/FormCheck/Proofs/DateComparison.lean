import FormCheck.Proofs.LengthBounds
import FormCheck.Proofs.NearestRank

/-!
# Comparison of dates

A rule that compares dates takes the integer in front of its argument as an instant.  A
date is before it, after it or at it, so the two rules and equality exclude one another
and leave nothing out; what is no date is neither before nor after.  Numbers are compared
as the instants that they denote, and these are in the order of the numbers.
-/

namespace FormCheck

/-- One of three statements holds, and no two of them do. -/
def ExactlyOne (p q r : Prop) : Prop :=
  (p ∧ ¬ q ∧ ¬ r) ∨ (¬ p ∧ q ∧ ¬ r) ∨ (¬ p ∧ ¬ q ∧ r)

theorem exactlyOne_lt_gt_eq (m n : ℤ) : ExactlyOne (m < n) (n < m) (m = n) := by
  unfold ExactlyOne
  omega

/-! ## Limits -/

namespace LeadingInteger

/-- The arguments of a rule of which the first one has this integer in front. -/
def args (limit : LeadingInteger) (others : List String) : List String :=
  String.ofList limit.text :: others

/-- The integer is one of 64 bits with a sign, but not the least one, so it is read. -/
def Fits (limit : LeadingInteger) : Prop :=
  limit.number.value.natAbs ≤ Argument.integerLimit

instance (limit : LeadingInteger) : Decidable limit.Fits :=
  inferInstanceAs (Decidable (_ ≤ _))

theorem integerArg?_args {limit : LeadingInteger} (hfits : limit.Fits) (others : List String) :
    Builtin.integerArg? (limit.args others) 0 = some limit.number.value := by
  have hstarts : Argument.StartsWith (String.ofList limit.text) limit.number.value :=
    ⟨limit, String.toList_ofList.symm, rfl⟩
  exact integerArg?_eq_some_iff.mpr ⟨String.ofList limit.text, rfl, hstarts, hfits⟩

end LeadingInteger

namespace Builtin

variable {value : Value} {millis : ℤ} {limit : LeadingInteger} {others : List String}

theorem holds_isBefore_iff (hdate : value.epochMillis? = some millis) (hfits : limit.Fits) :
    isBefore.holds value (limit.args others) = true ↔ millis < limit.number.value := by
  rw [holds, comparesDates, hdate, LeadingInteger.integerArg?_args hfits]
  exact decide_eq_true_iff

theorem holds_isAfter_iff (hdate : value.epochMillis? = some millis) (hfits : limit.Fits) :
    isAfter.holds value (limit.args others) = true ↔ limit.number.value < millis := by
  rw [holds, comparesDates, hdate, LeadingInteger.integerArg?_args hfits]
  exact decide_eq_true_iff

theorem not_holds_of_no_date (hnone : value.epochMillis? = none) (args : List String) :
    isBefore.holds value args = false ∧ isAfter.holds value args = false := by
  rw [holds, holds, comparesDates, comparesDates, hnone]
  exact ⟨rfl, rfl⟩

end Builtin

/-! ## Instants of numbers -/

namespace Number

/-- A fraction is cut off toward zero. -/
theorem truncate?_finite (negative : Bool) (magnitude : Fin magnitudeCount) :
    (finite negative magnitude).truncate? =
      some ((signed negative (units magnitude)).tdiv (twoTo unitExponent)) := by
  rw [truncate?, Option.some.injEq]
  cases negative with
  | false => exact Int.ofNat_tdiv _ _
  | true =>
      change -((units magnitude / twoTo unitExponent : ℕ) : ℤ) = (-(units magnitude : ℤ)).tdiv _
      rw [Int.neg_tdiv, Int.ofNat_tdiv]

end Number

theorem saturate_mono {m n : ℤ} (hle : m ≤ n) : saturate m ≤ saturate n := by
  unfold saturate
  omega

/-- The instants of finite numbers are in the order of the numbers. -/
theorem exists_instants_of_le
    {negative otherNegative : Bool} {magnitude other : Fin Number.magnitudeCount}
    (hle : (Number.finite negative magnitude).le (.finite otherNegative other) = true) :
    ∃ first second : ℤ,
      (Value.number (.finite negative magnitude)).epochMillis? = some first ∧
      (Value.number (.finite otherNegative other)).epochMillis? = some second ∧
      first ≤ second := by
  have hplaces : Number.signed negative (Number.units magnitude) ≤
      Number.signed otherNegative (Number.units other) := of_decide_eq_true hle
  have hunit : (0 : ℤ) < Number.twoTo Number.unitExponent :=
    Int.natCast_pos.mpr (Number.twoTo_pos _)
  refine ⟨_, _, ?_, ?_, saturate_mono (Int.tdiv_le_tdiv hunit hplaces)⟩
  · rw [Value.epochMillis?, Number.truncate?_finite, Option.map_some]
  · rw [Value.epochMillis?, Number.truncate?_finite, Option.map_some]

/-- With an integer of 64 bits in front of its argument, a date rule compares the instant of the
value with it: exactly one of before, after and equal holds of a date, after is the opposite of
before the next integer, and neither holds of a value that is no date.  A lesser number is before
whatever a greater one is before, and a greater one is after whatever a lesser one is after. -/
theorem dates_compare_with_limit (limit : LeadingInteger) (hfits : limit.Fits)
    (others : List String) :
    (∀ (value : Value) (millis : ℤ), value.epochMillis? = some millis →
      (Builtin.isBefore.holds value (limit.args others) = true ↔ millis < limit.number.value) ∧
      (Builtin.isAfter.holds value (limit.args others) = true ↔ limit.number.value < millis) ∧
      ExactlyOne (Builtin.isBefore.holds value (limit.args others) = true)
        (Builtin.isAfter.holds value (limit.args others) = true) (millis = limit.number.value) ∧
      ∀ next : LeadingInteger, next.Fits → next.number.value = limit.number.value + 1 →
        (Builtin.isAfter.holds value (limit.args others) = true ↔
          ¬ Builtin.isBefore.holds value (next.args others) = true)) ∧
    (∀ value : Value, value.epochMillis? = none →
      Builtin.isBefore.holds value (limit.args others) = false ∧
      Builtin.isAfter.holds value (limit.args others) = false) ∧
    ∀ (negative otherNegative : Bool) (magnitude other : Fin Number.magnitudeCount),
      (Number.finite negative magnitude).le (.finite otherNegative other) = true →
      (Builtin.isBefore.holds (.number (.finite otherNegative other)) (limit.args others) = true →
        Builtin.isBefore.holds (.number (.finite negative magnitude)) (limit.args others) = true) ∧
      (Builtin.isAfter.holds (.number (.finite negative magnitude)) (limit.args others) = true →
        Builtin.isAfter.holds (.number (.finite otherNegative other)) (limit.args others) =
          true) := by
  refine ⟨?_, fun value hnone => Builtin.not_holds_of_no_date hnone _, ?_⟩
  · intro value millis hdate
    refine ⟨Builtin.holds_isBefore_iff hdate hfits, Builtin.holds_isAfter_iff hdate hfits, ?_, ?_⟩
    · rw [Builtin.holds_isBefore_iff hdate hfits, Builtin.holds_isAfter_iff hdate hfits]
      exact exactlyOne_lt_gt_eq millis limit.number.value
    · intro next hnext hvalue
      rw [Builtin.holds_isAfter_iff hdate hfits, Builtin.holds_isBefore_iff hdate hnext, hvalue]
      omega
  · intro negative otherNegative magnitude other hle
    obtain ⟨first, second, hfirst, hsecond, horder⟩ := exists_instants_of_le hle
    rw [Builtin.holds_isBefore_iff hfirst hfits, Builtin.holds_isBefore_iff hsecond hfits,
      Builtin.holds_isAfter_iff hfirst hfits, Builtin.holds_isAfter_iff hsecond hfits]
    exact ⟨horder.trans_lt, fun hafter => hafter.trans_le horder⟩

/-- Minus one, with leading zeros and something behind it. -/
def minusOne : LeadingInteger where
  blanks := [' ', '\t']
  number := ⟨some true, ['0', '0', '1'], by simp, by simp⟩
  rest := ['m', 's', '0']
  isBlank_blanks := by simp [Text.isBlank]
  ends := by simp

def plusZero : LeadingInteger where
  blanks := []
  number := ⟨some false, ['0'], by simp, by simp⟩
  rest := []
  isBlank_blanks := by simp
  ends := by simp

/-- One half, the magnitude of which has no whole part. -/
def half : Fin Number.magnitudeCount :=
  ⟨1022 * Number.blockSize, by decide⟩

theorem minus_half_after_minusOne :
    minusOne.args [] = [" \t-001ms0"] ∧ plusZero.args [] = ["+0"] ∧
    (Value.number (.finite true half)).epochMillis? = some 0 ∧
    Builtin.isAfter.holds (.number (.finite true half)) [" \t-001ms0"] = true ∧
    ¬ Builtin.isBefore.holds (.number (.finite true half)) ["+0"] = true ∧
    Builtin.isAfter.holds (.number (.finite false half)) [" \t-001ms0"] = true ∧
    Builtin.isAfter.holds (.number .nan) [" \t-001ms0"] = false := by
  have hminusOne : minusOne.args [] = [" \t-001ms0"] := by decide
  have hplusZero : plusZero.args [] = ["+0"] := by decide
  have hinstant : (Value.number (.finite true half)).epochMillis? = some 0 := by decide +kernel
  obtain ⟨hdates, hnone, hnumbers⟩ := dates_compare_with_limit minusOne (by decide) []
  obtain ⟨-, hafter, -, hnext⟩ := hdates _ _ hinstant
  have hpasses := hafter.mpr (by decide)
  have hbefore := (hnext plusZero (by decide) (by decide)).mp hpasses
  have hgreater := (hnumbers true false half half (by decide +kernel)).2 hpasses
  have hnan := (hnone (.number .nan) rfl).2
  rw [hminusOne] at hpasses hgreater hnan
  rw [hplusZero] at hbefore
  exact ⟨hminusOne, hplusZero, hinstant, hpasses, hbefore, hgreater, hnan⟩

end FormCheck
