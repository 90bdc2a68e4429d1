import FormCheck.Proofs.LengthBounds
import FormCheck.Proofs.NumberReadBack

/-!
# Related rules

The built-in rules take different views of a value: some look at its kind, some at its
text and some at its place on the line of numbers.  They still agree with one another.
What joins them is that only one value has an empty text, the empty text itself: number
texts and the names of truth values have at least one character.
-/

namespace FormCheck

/-! ## Empty texts -/

theorem Number.text_ne_empty (n : Number) : n.text.toList ≠ [] := by
  cases n with
  | nan => decide
  | infinite negative => cases negative <;> decide
  | finite negative magnitude =>
      obtain ⟨c, rest, hliteral, -⟩ := Literal.exists_digit_text
        (NumberStyle.script.wellFormed_magnitudeLiteral negative magnitude)
      rw [toList_text_finite, hliteral]
      exact List.append_ne_nil_of_right_ne_nil _ (List.cons_ne_nil _ _)

theorem Value.charCount_eq_zero_iff (value : Value) : value.charCount = 0 ↔ value = .text "" := by
  unfold Value.charCount
  rw [List.length_eq_zero_iff]
  cases value with
  | bool b => cases b <;> decide
  | number n => simpa [display] using n.text_ne_empty
  | text s => simp [display]

namespace Builtin

variable {value : Value} {args others : List String}

/-! ## Rules about lengths -/

theorem holds_isEmpty_iff : isEmpty.holds value args = true ↔ value = .text "" := by
  rw [holds, beq_iff_eq, Value.charCount_eq_zero_iff]

theorem holds_length_of_two_bounds {least greatest : ℤ}
    (hleast : integerArg? args 0 = some least) (hgreatest : integerArg? args 1 = some greatest) :
    length.holds value args = true ↔ least ≤ value.charCount ∧ value.charCount ≤ greatest := by
  rw [holds, lengthWithin, hleast, hgreatest, Bool.and_eq_true, decide_eq_true_iff,
    decide_eq_true_iff]

theorem holds_length_of_one_bound {least : ℤ}
    (hleast : integerArg? args 0 = some least) (hgreatest : integerArg? args 1 = none) :
    length.holds value args = true ↔ least ≤ value.charCount := by
  rw [holds, lengthWithin, hleast, hgreatest]
  simp

theorem holds_length_zero_iff : length.holds value ["0", "0"] = true ↔ value = .text "" := by
  have hleast : integerArg? ["0", "0"] 0 = some 0 := by decide
  have hgreatest : integerArg? ["0", "0"] 1 = some 0 := by decide
  rw [holds_length_of_two_bounds hleast hgreatest, ← Value.charCount_eq_zero_iff]
  omega

theorem holds_length_one_iff : length.holds value ["1"] = true ↔ value ≠ .text "" := by
  have hleast : integerArg? ["1"] 0 = some 1 := by decide
  rw [holds_length_of_one_bound hleast rfl, ne_eq, ← Value.charCount_eq_zero_iff]
  omega

theorem holds_required_iff :
    required.holds value args = true ↔ value ≠ .text "" ∧ isBoolean.holds value others = false := by
  cases value with
  | bool b => simp [holds, isGiven, Value.bool?]
  | number n => simp [holds, isGiven, Value.bool?]
  | text s => simp [holds, isGiven, Value.bool?]

/-! ## Rules that ask for a kind -/

theorem holds_isBoolean_iff :
    isBoolean.holds value args = true ↔
      Xor (isTrue.holds value args = true) (isFalse.holds value others = true) := by
  cases value with
  | bool b => cases b <;> simp [holds, Value.bool?, Xor]
  | number n => simp [holds, Value.bool?, Xor]
  | text s => simp [holds, Value.bool?, Xor]

theorem holds_between_iff (least greatest : String) :
    between.holds value [least, greatest] = true ↔
      min.holds value [least] = true ∧ max.holds value [greatest] = true :=
  Bool.and_eq_true_iff

/-- The rules that compare numbers look at nothing else. -/
theorem isNumber_of_bound {rule : Builtin} (hrule : rule ∈ [max, min, between])
    (hholds : rule.holds value args = true) : isNumber.holds value others = true := by
  have hmost : ∀ index, value.number? = none → isAtMost value args index = false := by
    intro index hnone
    rw [isAtMost, hnone]
  have hleast : ∀ index, value.number? = none → isAtLeast value args index = false := by
    intro index hnone
    rw [isAtLeast, hnone]
  by_contra hkind
  rw [holds, Option.not_isSome_iff_eq_none] at hkind
  simp only [List.mem_cons, List.not_mem_nil, or_false] at hrule
  rcases hrule with rfl | rfl | rfl
  · rw [holds, hmost 0 hkind] at hholds
    cases hholds
  · rw [holds, hleast 0 hkind] at hholds
    cases hholds
  · rw [holds, hleast 0 hkind] at hholds
    cases hholds

theorem isDate_of_comparison {rule : Builtin} (hrule : rule ∈ [isAfter, isBefore])
    (hholds : rule.holds value args = true) : isDate.holds value others = true := by
  have hcompares : ∀ relation, value.epochMillis? = none →
      comparesDates relation value args = false := by
    intro relation hnone
    rw [comparesDates, hnone]
  by_contra hdate
  rw [holds, Option.not_isSome_iff_eq_none] at hdate
  simp only [List.mem_cons, List.not_mem_nil, or_false] at hrule
  rcases hrule with rfl | rfl
  · rw [holds, hcompares _ hdate] at hholds
    cases hholds
  · rw [holds, hcompares _ hdate] at hholds
    cases hholds

/-- The rules agree with one another on every value.  Being empty, having at most no character and
not having one character are the same; what is required has a character and is no truth value; a
range is its two bounds; a truth value is either true or false; and the rules that compare numbers
or dates hold of numbers or dates only. -/
theorem related_rules_agree (value : Value) (args others : List String) (least greatest : String) :
    (isEmpty.holds value args = true ↔ length.holds value ["0", "0"] = true) ∧
    (length.holds value ["0", "0"] = true ↔ length.holds value ["1"] = false) ∧
    (required.holds value args = true ↔
      length.holds value ["1"] = true ∧ isBoolean.holds value others = false) ∧
    (between.holds value [least, greatest] = true ↔
      min.holds value [least] = true ∧ max.holds value [greatest] = true) ∧
    (isBoolean.holds value args = true ↔
      Xor (isTrue.holds value args = true) (isFalse.holds value others = true)) ∧
    (∀ rule ∈ [max, min, between],
      rule.holds value args = true → isNumber.holds value others = true) ∧
    ∀ rule ∈ [isAfter, isBefore],
      rule.holds value args = true → isDate.holds value others = true := by
  refine ⟨?_, ?_, ?_, holds_between_iff least greatest, holds_isBoolean_iff,
    fun _ => isNumber_of_bound, fun _ => isDate_of_comparison⟩
  · rw [holds_isEmpty_iff, holds_length_zero_iff]
  · rw [← Bool.not_eq_true, holds_length_one_iff, holds_length_zero_iff, not_not]
  · rw [holds_length_one_iff, holds_required_iff]

/-- The negative zero, between bounds that are written in unusual ways. -/
theorem negative_zero_related :
    (required.holds (.number (Number.zero true)) [] = true ↔
      length.holds (.number (Number.zero true)) ["1"] = true ∧
        isBoolean.holds (.number (Number.zero true)) [] = false) ∧
    between.holds (.number (Number.zero true)) [" -0e9", "+inf"] = true ∧
    min.holds (.number (Number.zero true)) [" -0e9"] = true ∧
    max.holds (.number (Number.zero true)) ["+inf"] = true ∧
    isNumber.holds (.number (Number.zero true)) [] = true ∧
    isBefore.holds (.number (Number.zero true)) ["1ms"] = true ∧
    isDate.holds (.number (Number.zero true)) [] = true := by
  have hrange : between.holds (.number (Number.zero true)) [" -0e9", "+inf"] = true := by decide
  have hbefore : isBefore.holds (.number (Number.zero true)) ["1ms"] = true := by
    decide +kernel
  obtain ⟨-, -, hrequired, hbounds, -, hnumber, -⟩ :=
    related_rules_agree (.number (Number.zero true)) [" -0e9", "+inf"] [] " -0e9" "+inf"
  obtain ⟨-, -, -, -, -, -, hdate⟩ :=
    related_rules_agree (.number (Number.zero true)) ["1ms"] [] "" ""
  obtain ⟨hleast, hgreatest⟩ := hbounds.mp hrange
  exact ⟨hrequired, hrange, hleast, hgreatest, hnumber .between (by decide) hrange, hbefore,
    hdate .isBefore (by decide) hbefore⟩

end Builtin

end FormCheck
