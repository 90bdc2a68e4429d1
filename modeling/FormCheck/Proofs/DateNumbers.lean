import FormCheck.Proofs.DateForms
import FormCheck.Proofs.NumberSpelling
import FormCheck.Proofs.SteppedEvaluation
import FormCheck.Validator.Builtin

/-!
# Dates as numbers

A date text denotes an instant of a supported day, and the instants of these days are
less than two to the power 53 milliseconds away from the start of 1970.  A whole number
of this size is a number exactly, and as a date this number is the instant again.  Rules
about dates look at nothing else, so they do not tell the number from the text.
-/

namespace FormCheck

/-! ## The range of instants -/

/-- What is read, if anything, is an instant near enough to the start of 1970. -/
def ReadsNear (read : Option ℤ) : Prop :=
  ∀ millis ∈ read, millis.natAbs < 2 ^ 53

theorem readsNear_none : ReadsNear none := by
  intro millis hmillis
  cases hmillis

/-- A scan reads what its last step reads. -/
theorem ReadsNear.bind {α : Type} {step : Option α} {next : α → Option ℤ}
    (hnext : ∀ found, ReadsNear (next found)) : ReadsNear (step.bind next) := by
  cases step with
  | none => exact readsNear_none
  | some found => exact hnext found

theorem Moment.readsNear_epochMillis? (moment : Moment) (offset : ℤ) :
    ReadsNear (moment.epochMillis? offset) := by
  have hleast : Date.least.dayNumber = -96465292 := by decide
  have hgreatest : Date.greatest.dayNumber = 95026236 := by decide
  have hsecond := moment.second_le
  have hmillis := moment.millis_lt
  unfold Moment.epochMillis?
  generalize moment.universalMinute offset = minute
  simp only [hleast, hgreatest]
  split
  · intro millis hread
    have hvalue := Option.some.inj hread
    omega
  · exact readsNear_none

namespace DateText

theorem Form.readsNear_read? (form : Form) (s : List Char) : ReadsNear (form.read? s) := by
  -- Every form is a chain of steps, the last of which gives the instant of a moment.
  cases form
  all_goals
    repeat refine ReadsNear.bind fun _ => ?_
    exact Moment.readsNear_epochMillis? _ _

theorem readsNear_epochMillis? (s : String) : ReadsNear (epochMillis? s) := by
  intro millis hread
  obtain ⟨form, -, hform⟩ := List.exists_of_findSome?_eq_some hread
  exact form.readsNear_read? _ millis hform

end DateText

/-! ## Whole numbers as instants -/

theorem Number.nearestRank_exact_lt : nearestRank (2 ^ 53) 1 < magnitudeCount := by
  decide +kernel

theorem Number.truncate?_ofInt {n : ℤ} (hn : n.natAbs ≤ 2 ^ 53) : (ofInt n).truncate? = some n := by
  have hunits := units_nearestRank_of_le hn
  have hrank : nearestRank n.natAbs 1 < magnitudeCount :=
    (nearestRank_mono Nat.one_pos Nat.one_pos (by omega)).trans_lt nearestRank_exact_lt
  rw [ofInt, ofFraction, ofRank, dif_pos hrank, truncate?, hunits,
    Nat.mul_div_cancel _ (twoTo_pos unitExponent), signed_natAbs]

theorem Value.epochMillis?_ofInt {n : ℤ} (hn : n.natAbs ≤ 2 ^ 53) :
    (Value.number (.ofInt n)).epochMillis? = some n := by
  have hsaturate : saturate n = n := by
    unfold saturate
    omega
  rw [epochMillis?, Number.truncate?_ofInt hn, Option.map_some, hsaturate]

/-! ## Rules about dates -/

namespace Builtin

/-- The rules that look at the instant of a value. -/
def dateRules : List Builtin :=
  [.isDate, .isAfter, .isBefore]

theorem holds_of_same_instant {rule : Builtin} (hrule : rule ∈ dateRules) {value other : Value}
    (hsame : value.epochMillis? = other.epochMillis?) (args : List String) :
    rule.holds value args = rule.holds other args := by
  simp only [dateRules, List.mem_cons, List.not_mem_nil, or_false] at hrule
  rcases hrule with rfl | rfl | rfl
  · rw [holds, holds, hsame]
  · rw [holds, holds, comparesDates, comparesDates, hsame]
  · rw [holds, holds, comparesDates, comparesDates, hsame]

end Builtin

/-- The instant of a date text is a whole number of less than 54 binary digits.  The number made
from it denotes the same instant, and the rules about dates answer alike for both. -/
theorem date_text_as_number {s : String} {millis : ℤ}
    (hdate : (Value.text s).epochMillis? = some millis) :
    millis.natAbs < 2 ^ 53 ∧
    (Value.number (.ofInt millis)).epochMillis? = some millis ∧
    ∀ rule ∈ Builtin.dateRules, ∀ args : List String,
      rule.holds (.text s) args = rule.holds (.number (.ofInt millis)) args := by
  have hnear : millis.natAbs < 2 ^ 53 := DateText.readsNear_epochMillis? s millis hdate
  have hnumber := Value.epochMillis?_ofInt hnear.le
  refine ⟨hnear, hnumber, ?_⟩
  intro rule hrule args
  exact Builtin.holds_of_same_instant hrule (hdate.trans hnumber.symm) args

/-- The leap second that ends the last supported day. -/
theorem last_second_as_number :
    (Value.text "31 Dec 262142 23:59:60 +0000").epochMillis? = some 8210266876800000 ∧
    (Value.number (.ofInt 8210266876800000)).epochMillis? = some 8210266876800000 ∧
    Builtin.isAfter.holds (.number (.ofInt 8210266876800000)) ["8210266876799999"] = true ∧
    Builtin.isAfter.holds (.number (.ofInt 8210266876800000)) ["8210266876800000"] = false := by
  have hdate : (Value.text "31 Dec 262142 23:59:60 +0000").epochMillis? =
      some 8210266876800000 := by decide
  obtain ⟨-, hnumber, hrules⟩ := date_text_as_number hdate
  refine ⟨hdate, hnumber, ?_, ?_⟩
  · rw [← hrules .isAfter (by decide)]
    decide
  · rw [← hrules .isAfter (by decide)]
    decide

end FormCheck
