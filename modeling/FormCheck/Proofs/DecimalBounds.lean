import FormCheck.Proofs.DecimalLiterals
import FormCheck.Proofs.ExactValues
import FormCheck.Validator.Builtin

/-!
# Bounds written as decimals

The rules about numbers compare with the number nearest to the decimal that an argument
spells.  Rounding keeps the order of fractions, so a number that is within the bound as it
is written is also within the bound that is compared with, and a wider bound accepts
whatever a narrower one does.  This holds of all decimals, also of those that round to an
infinity or to zero.  What is not a number is never within a bound, and is no bound.
-/

namespace FormCheck

/-! ## What a literal denotes -/

namespace DecimalLiteral

variable (literal : DecimalLiteral)

def places : ℕ :=
  (literal.fraction.getD []).length

/-- What a literal denotes: its whole digits and the fraction after them, times a power of ten. -/
def value : ℚ :=
  withSign (literal.minus.getD false)
    ((Text.numberOfDigits literal.whole +
      Text.numberOfDigits (literal.fraction.getD []) / 10 ^ literal.places) *
        10 ^ literal.exponentValue)

theorem numberOfDigits_append (whole fraction : List Char) :
    (Text.numberOfDigits (whole ++ fraction) : ℚ) =
      (Text.numberOfDigits whole + Text.numberOfDigits fraction / 10 ^ fraction.length) *
        10 ^ fraction.length := by
  have hten : (10 : ℚ) ^ fraction.length ≠ 0 := pow_ne_zero _ (by norm_num)
  have hdigits : Text.numberOfDigits (whole ++ fraction) =
      10 ^ fraction.length * Text.numberOfDigits whole + Text.numberOfDigits fraction := by
    unfold Text.numberOfDigits
    rw [Nat.ofDigitChars_append, Nat.ofDigitChars_eq_ofDigitChars_zero]
  rw [hdigits, add_mul, div_mul_cancel₀ _ hten]
  push_cast
  ring

theorem exact_decimal : literal.decimal.exact = literal.value := by
  have hten : (10 : ℚ) ≠ 0 := by norm_num
  change withSign _ ((Text.numberOfDigits _ : ℚ) * 10 ^ (literal.exponentValue - _)) = _
  rw [numberOfDigits_append, zpow_sub₀ hten, zpow_natCast, value, places]
  congr 1
  field_simp

theorem bound?_of_trim {arg : String} (harg : Text.trim arg.toList = literal.text) :
    Argument.bound? arg = some literal.decimal.toNumber := by
  have hnumber : literal.decimal.toNumber ≠ .nan := by
    intro hnan
    have hplace := Number.position?_toNumber literal.decimal
    rw [hnan] at hplace
    cases hplace
  rw [Argument.bound?, harg, number?_text]
  simp [hnumber]

end DecimalLiteral

/-! ## Names of what is not a number -/

namespace Argument

/-- The name of what is not a number, in letters of either case, with a sign or without one. -/
def SpellsNan (s : List Char) : Prop :=
  ∃ (minus : Option Bool) (name : List Char), s = SignedDigits.signText minus ++ name ∧
    name.map Char.toLower = "nan".toList

theorem bound?_of_spellsNan {arg : String} (harg : SpellsNan (Text.trim arg.toList)) :
    bound? arg = none := by
  obtain ⟨minus, name, htext, hname⟩ := harg
  have hsplit : splitSign (SignedDigits.signText minus ++ name) = (minus.getD false, name) := by
    apply SignedDigits.splitSign_signText
    intro c hc
    have hlower : name.head?.map Char.toLower = some 'n' := by
      rw [← List.head?_map, hname]
      rfl
    rw [Option.mem_def.mp hc, Option.map_some] at hlower
    constructor
    · rintro rfl
      exact absurd hlower (by decide)
    · rintro rfl
      exact absurd hlower (by decide)
  have hnumber : number? (Text.trim arg.toList) = some .nan := by
    unfold number? isNamed
    simp only [htext, hsplit, hname]
    rw [if_neg (by decide), if_pos (by decide)]
  rw [bound?, hnumber]
  rfl

end Argument

/-! ## Numbers within a bound -/

namespace Number

/-- A number that is at most a fraction. -/
def AtMost (q : ℚ) : Number → Prop
  | .nan => False
  | .infinite negative => negative = true
  | .finite negative magnitude => withSign negative (value magnitude) ≤ q

/-- A number that is at least a fraction. -/
def AtLeast (q : ℚ) : Number → Prop
  | .nan => False
  | .infinite negative => negative = false
  | .finite negative magnitude => q ≤ withSign negative (value magnitude)

variable {n bound : Number} {q : ℚ}

theorem le_iff_places {a b : Number} :
    a.le b = true ↔ ∃ x y, a.position? = some x ∧ b.position? = some y ∧ x ≤ y := by
  unfold le
  cases a.position? with
  | none => simp
  | some x =>
      cases b.position? with
      | none => simp
      | some y => simp

theorem le_of_le_of_le {a b c : Number} (hab : a.le b = true) (hbc : b.le c = true) :
    a.le c = true := by
  rw [le_iff_places] at *
  obtain ⟨x, y, hx, hy, hxy⟩ := hab
  obtain ⟨other, z, hother, hz, hyz⟩ := hbc
  obtain rfl : y = other := Option.some.inj (hy.symm.trans hother)
  exact ⟨x, z, hx, hz, hxy.trans hyz⟩

theorem le_of_atMost (hn : n.AtMost q) (hbound : bound.position? = some (placeOf q)) :
    n.le bound = true := by
  have hrange := natAbs_placeOf_le q
  rw [le_iff_places]
  cases n with
  | nan => exact hn.elim
  | infinite negative =>
      obtain rfl : negative = true := hn
      refine ⟨_, _, rfl, hbound, ?_⟩
      rw [signed, if_pos rfl]
      omega
  | finite negative magnitude =>
      exact ⟨_, _, position?_finite negative magnitude, hbound, placeOf_mono hn⟩

theorem le_of_atLeast (hn : n.AtLeast q) (hbound : bound.position? = some (placeOf q)) :
    bound.le n = true := by
  have hrange := natAbs_placeOf_le q
  rw [le_iff_places]
  cases n with
  | nan => exact hn.elim
  | infinite negative =>
      obtain rfl : negative = false := hn
      refine ⟨_, _, hbound, rfl, ?_⟩
      rw [signed, if_neg Bool.false_ne_true]
      omega
  | finite negative magnitude =>
      exact ⟨_, _, hbound, position?_finite negative magnitude, placeOf_mono hn⟩

end Number

/-! ## Rules with a bound -/

namespace Builtin

variable {arg other : String} {bound : Number} {value : Value} {args : List String}

theorem holds_max_iff (hbound : Argument.bound? arg = some bound) :
    Builtin.max.holds value (arg :: args) = true ↔
      ∃ n, value.number? = some n ∧ n.le bound = true := by
  have harg : boundArg? (arg :: args) 0 = some bound := hbound
  rw [holds, isAtMost, harg]
  cases value.number? with
  | none => simp
  | some n => simp

theorem holds_min_iff (hbound : Argument.bound? arg = some bound) :
    Builtin.min.holds value (arg :: args) = true ↔
      ∃ n, value.number? = some n ∧ bound.le n = true := by
  have harg : boundArg? (arg :: args) 0 = some bound := hbound
  rw [holds, isAtLeast, harg]
  cases value.number? with
  | none => simp
  | some n => simp

/-- Without a bound no value is within it. -/
theorem isAtMost_of_no_bound {index : ℕ} (hbound : boundArg? args index = none) (value : Value) :
    isAtMost value args index = false := by
  rw [isAtMost, hbound]
  cases value.number? <;> rfl

theorem isAtLeast_of_no_bound {index : ℕ} (hbound : boundArg? args index = none)
    (value : Value) : isAtLeast value args index = false := by
  rw [isAtLeast, hbound]
  cases value.number? <;> rfl

theorem isAtMost_nan (args : List String) (index : ℕ) :
    isAtMost (.number .nan) args index = false := by
  rw [isAtMost, Value.number?]
  cases boundArg? args index <;> rfl

theorem isAtLeast_nan (args : List String) (index : ℕ) :
    isAtLeast (.number .nan) args index = false := by
  rw [isAtLeast, Value.number?]
  cases boundArg? args index with
  | none => rfl
  | some bound => cases bound <;> rfl

theorem holds_nan (args : List String) :
    Builtin.max.holds (.number .nan) args = false ∧
    Builtin.min.holds (.number .nan) args = false ∧
    Builtin.between.holds (.number .nan) args = false := by
  refine ⟨isAtMost_nan args 0, isAtLeast_nan args 0, ?_⟩
  rw [holds, isAtLeast_nan, Bool.false_and]

theorem holds_of_no_bound (hbound : Argument.bound? arg = none) (value : Value)
    (args : List String) :
    Builtin.max.holds value (arg :: args) = false ∧
    Builtin.min.holds value (arg :: args) = false ∧
    Builtin.between.holds value (arg :: args) = false ∧
    ∀ least : String, Builtin.between.holds value (least :: arg :: args) = false := by
  have hfirst : boundArg? (arg :: args) 0 = none := hbound
  have hsecond : ∀ least : String, boundArg? (least :: arg :: args) 1 = none := fun _ => hbound
  refine ⟨isAtMost_of_no_bound hfirst value, isAtLeast_of_no_bound hfirst value, ?_, ?_⟩
  · rw [holds, isAtLeast_of_no_bound hfirst, Bool.false_and]
  · intro least
    rw [holds, isAtMost_of_no_bound (hsecond least), Bool.and_false]

end Builtin

namespace DecimalLiteral

theorem position?_of_literal (literal : DecimalLiteral) :
    literal.decimal.toNumber.position? = some (Number.placeOf literal.value) := by
  rw [Number.position?_toNumber, literal.exact_decimal]

theorem bounds_le {lower upper : DecimalLiteral} (hle : lower.value ≤ upper.value) :
    lower.decimal.toNumber.le upper.decimal.toNumber = true :=
  Number.le_iff_places.mpr
    ⟨_, _, lower.position?_of_literal, upper.position?_of_literal, Number.placeOf_mono hle⟩

/-- A number that is within a decimal bound as it is written passes the rule with this bound, and
a wider bound accepts what a narrower one does.  What is not a number passes no bound and bounds
no number. -/
theorem decimal_bounds_honoured :
    (∀ (n : Number) (literal : DecimalLiteral) (arg : String) (args : List String),
      Text.trim arg.toList = literal.text →
      (n.AtMost literal.value → Builtin.max.holds (.number n) (arg :: args) = true) ∧
      (n.AtLeast literal.value → Builtin.min.holds (.number n) (arg :: args) = true)) ∧
    (∀ (lower upper : DecimalLiteral) (lowerArg upperArg : String) (args : List String),
      Text.trim lowerArg.toList = lower.text → Text.trim upperArg.toList = upper.text →
      lower.value ≤ upper.value → ∀ value : Value,
      (Builtin.max.holds value (lowerArg :: args) = true →
        Builtin.max.holds value (upperArg :: args) = true) ∧
      (Builtin.min.holds value (upperArg :: args) = true →
        Builtin.min.holds value (lowerArg :: args) = true)) ∧
    (∀ args : List String,
      Builtin.max.holds (.number .nan) args = false ∧
      Builtin.min.holds (.number .nan) args = false ∧
      Builtin.between.holds (.number .nan) args = false) ∧
    ∀ (arg : String) (value : Value) (args : List String),
      Argument.SpellsNan (Text.trim arg.toList) →
      Builtin.max.holds value (arg :: args) = false ∧
      Builtin.min.holds value (arg :: args) = false ∧
      Builtin.between.holds value (arg :: args) = false ∧
      ∀ least : String, Builtin.between.holds value (least :: arg :: args) = false := by
  refine ⟨?_, ?_, Builtin.holds_nan, ?_⟩
  · intro n literal arg args harg
    have hbound := literal.bound?_of_trim harg
    have hplace := literal.position?_of_literal
    rw [Builtin.holds_max_iff hbound, Builtin.holds_min_iff hbound]
    exact ⟨fun hn => ⟨n, rfl, Number.le_of_atMost hn hplace⟩,
      fun hn => ⟨n, rfl, Number.le_of_atLeast hn hplace⟩⟩
  · intro lower upper lowerArg upperArg args hlower hupper hle value
    have hlowerBound := lower.bound?_of_trim hlower
    have hupperBound := upper.bound?_of_trim hupper
    rw [Builtin.holds_max_iff hlowerBound, Builtin.holds_max_iff hupperBound,
      Builtin.holds_min_iff hlowerBound, Builtin.holds_min_iff hupperBound]
    constructor
    · rintro ⟨n, hn, hwithin⟩
      exact ⟨n, hn, Number.le_of_le_of_le hwithin (bounds_le hle)⟩
    · rintro ⟨n, hn, hwithin⟩
      exact ⟨n, hn, Number.le_of_le_of_le (bounds_le hle) hwithin⟩
  · intro arg value args harg
    exact Builtin.holds_of_no_bound (Argument.bound?_of_spellsNan harg) value args

/-- A power of ten with a whole exponent. -/
def tenTo (minus : Option Bool) (exponent : ℕ) : DecimalLiteral where
  minus := none
  whole := ['1']
  fraction := none
  exponent := some ('e', .ofNumber minus exponent)
  isDigit_whole := List.forall_mem_singleton.mpr rfl
  isDigit_fraction := fun _ hc => absurd hc List.not_mem_nil
  mark_mem := fun _ hpart => .inl (congrArg Prod.fst (Option.some.inj hpart)).symm
  has_digit := .inl (List.cons_ne_nil _ _)

theorem value_tenTo (minus : Option Bool) (exponent : ℕ) :
    (tenTo minus exponent).value = 10 ^ Number.signed (minus.getD false) exponent := by
  have hone : Text.numberOfDigits ['1'] = 1 := by decide
  have hnone : Text.numberOfDigits [] = 0 := by decide
  simp [value, tenTo, withSign, places, exponentValue, SignedDigits.value_ofNumber, hone, hnone]

/-- Bounds that round to an infinity and to zero. -/
theorem bounds_out_of_range_honoured :
    Builtin.min.holds (.number (.infinite false)) [" 1e400"] = true ∧
    Builtin.max.holds (.number (.finite true ⟨0, by decide⟩)) ["1e-400"] = true ∧
    (Builtin.max.holds (.number (.ofInt (-7))) ["1e-400"] = true →
      Builtin.max.holds (.number (.ofInt (-7))) [" 1e400"] = true) ∧
    Builtin.between.holds (.number .nan) ["1e-400", " 1e400"] = false ∧
    Builtin.between.holds (.number (.ofInt 7)) ["1e-400", "-NaN"] = false := by
  have hhuge : Text.trim " 1e400".toList = (tenTo none 400).text := by decide
  have htiny : Text.trim "1e-400".toList = (tenTo (some true) 400).text := by decide
  have hle : (tenTo (some true) 400).value ≤ (tenTo none 400).value := by
    rw [value_tenTo, value_tenTo]
    exact zpow_le_zpow_right₀ (by norm_num) (by decide)
  have hzero : (Number.finite true ⟨0, by decide⟩).AtMost (tenTo (some true) 400).value := by
    rw [value_tenTo]
    change -Number.value 0 ≤ _
    have hpower : (0 : ℚ) < 10 ^ Number.signed ((some true).getD false) 400 :=
      zpow_pos (by norm_num) _
    linarith [Number.value_nonneg 0]
  have hnan : Argument.SpellsNan (Text.trim "-NaN".toList) :=
    ⟨some true, "NaN".toList, by decide, by decide⟩
  obtain ⟨hwithin, hwider, hvalue, hname⟩ := decimal_bounds_honoured
  exact ⟨(hwithin _ _ _ [] hhuge).2 rfl, (hwithin _ _ _ [] htiny).1 hzero,
    (hwider _ _ _ _ [] htiny hhuge hle _).1, (hvalue _).2.2, (hname _ _ [] hnan).2.2.2 _⟩

end DecimalLiteral

end FormCheck
