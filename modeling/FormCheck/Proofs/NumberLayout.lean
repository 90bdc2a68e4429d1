import FormCheck.Number.Style
import FormCheck.Proofs.ShortestDigits
import FormCheck.Proofs.TextRuns

/-!
# The parts of a number text

Every text that is written for a finite number is made of the same parts: the
digits before the point, the digits after it if there are any, and a power of
ten if one is written.  The layouts of a style differ only in where the digits
stand.  Whatever the layout is, the parts spell the decimal that was to be
written; only a whole number that is written positionally is spelled with all
its zeros.
-/

namespace FormCheck

/-! ## Zeros -/

namespace Text

theorem numberOfDigits_append_zeros (digits : List Char) (zeros : ℕ) :
    numberOfDigits (digits ++ List.replicate zeros '0') =
      numberOfDigits digits * Decimal.tenTo zeros := by
  unfold numberOfDigits
  rw [Nat.ofDigitChars_append, Nat.ofDigitChars_replicate_zero]
  exact Nat.mul_comm _ _

end Text

namespace Decimal

theorem ofParts_eq
    {negative : Bool} {whole fraction : List Char} {raised exponent : Int} {digits : ℕ}
    (hdigits : Text.numberOfDigits (whole ++ fraction) = digits)
    (hexponent : raised - fraction.length = exponent) :
    ofParts negative whole fraction raised = ⟨negative, digits, exponent⟩ := by
  unfold ofParts
  rw [hdigits, hexponent]

end Decimal

/-! ## Literals -/

structure Literal where
  whole : List Char
  fraction : List Char
  exponent : Option Int

namespace Literal

def fractionText : List Char → List Char
  | [] => []
  | digits => '.' :: digits

def exponentText : Option Int → List Char
  | none => []
  | some exponent =>
    ['e', if exponent < 0 then '-' else '+'] ++ Text.digitsOfNumber exponent.natAbs

theorem fractionText_of_ne_nil {digits : List Char} (hdigits : digits ≠ []) :
    fractionText digits = '.' :: digits := by
  cases digits with
  | nil => exact absurd rfl hdigits
  | cons c digits => rfl

def text (literal : Literal) : List Char :=
  literal.whole ++ fractionText literal.fraction ++ exponentText literal.exponent

/-- The decimal that a literal denotes, read digit by digit. -/
def decimal (negative : Bool) (literal : Literal) : Decimal :=
  .ofParts negative literal.whole literal.fraction (literal.exponent.getD 0)

/-- The digits of a literal are digits, there are some before the point, and the first of several
there is not zero. -/
structure WellFormed (literal : Literal) : Prop where
  isDigit_whole : ∀ c ∈ literal.whole, c.isDigit = true
  isDigit_fraction : ∀ c ∈ literal.fraction, c.isDigit = true
  whole_ne_nil : literal.whole ≠ []
  head_whole : literal.whole.head? ≠ some '0' ∨ literal.whole.length = 1

end Literal

/-! ## Layouts -/

namespace NumberStyle

variable {style : NumberStyle} {negative : Bool} {decimal : Decimal}

/-- How many zeros stand after the point of a whole number. -/
def wholePlaces (style : NumberStyle) : ℕ :=
  style.wholePoint.toNat

/-- The parts in which digits are laid out, where `exponent` is the power of ten of the leading
digit. -/
def layout (style : NumberStyle) (digits : List Char) (exponent : Int) : Literal :=
  let wholeLength := (exponent + 1).toNat
  if style.least ≤ exponent ∧ exponent ≤ style.greatest then
    if exponent < 0 then ⟨['0'], List.replicate (-exponent - 1).toNat '0' ++ digits, none⟩
    else if digits.length ≤ wholeLength then
      ⟨digits ++ List.replicate (wholeLength - digits.length) '0',
        List.replicate style.wholePlaces '0', none⟩
    else ⟨digits.take wholeLength, digits.drop wholeLength, none⟩
  else ⟨digits.take 1, digits.drop 1, some exponent⟩

/-- The power of ten of the leading digit. -/
def leading (decimal : Decimal) : Int :=
  decimal.exponent + Text.digitCount decimal.digits - 1

def literal (style : NumberStyle) (decimal : Decimal) : Literal :=
  style.layout (Text.digitsOfNumber decimal.digits) (leading decimal)

section Layout

variable {digits : List Char} {exponent : Int}

theorem text_layout (hdigits : digits ≠ []) :
    (style.layout digits exponent).text =
      if style.least ≤ exponent ∧ exponent ≤ style.greatest then style.positional digits exponent
      else exponential digits exponent := by
  unfold layout
  simp only
  split
  · unfold positional
    simp only
    split
    · have hfraction : List.replicate (-exponent - 1).toNat '0' ++ digits ≠ [] :=
        List.append_ne_nil_of_right_ne_nil _ hdigits
      rw [Literal.text, Literal.fractionText_of_ne_nil hfraction]
      simp [Literal.exponentText]
    · split
      · unfold wholePlaces
        cases style.wholePoint <;>
          simp [Literal.text, Literal.exponentText, Literal.fractionText]
      · next hlong =>
        have hfraction : digits.drop (exponent + 1).toNat ≠ [] := by
          rw [ne_eq, List.drop_eq_nil_iff]
          exact hlong
        simp [Literal.text, Literal.exponentText, Literal.fractionText_of_ne_nil hfraction]
  · unfold exponential
    simp only
    cases hfraction : digits.drop 1 with
    | nil => simp [Literal.text, Literal.exponentText, Literal.fractionText]
    | cons c fraction => simp [Literal.text, Literal.exponentText, Literal.fractionText]

theorem wellFormed_layout
    (hdigits : ∀ c ∈ digits, c.isDigit = true) (hne : digits ≠ [])
    (hhead : digits.head? ≠ some '0') : (style.layout digits exponent).WellFormed := by
  have hzero : ('0' : Char).isDigit = true := rfl
  have hzeros : ∀ n, ∀ c ∈ List.replicate n '0', c.isDigit = true := by
    intro n c hc
    rw [List.eq_of_mem_replicate hc]
    exact hzero
  unfold layout
  simp only
  split
  · split
    · exact {
        isDigit_whole := List.forall_mem_singleton.mpr hzero
        isDigit_fraction := List.forall_mem_append.mpr ⟨hzeros _, hdigits⟩
        whole_ne_nil := List.cons_ne_nil _ _
        head_whole := .inr rfl }
    · next hexponent =>
      split
      · refine {
          isDigit_whole := List.forall_mem_append.mpr ⟨hdigits, hzeros _⟩
          isDigit_fraction := hzeros _
          whole_ne_nil := List.append_ne_nil_of_left_ne_nil hne _
          head_whole := .inl ?_ }
        rwa [Text.head?_append_of_ne_nil hne]
      · have hwhole : (exponent + 1).toNat ≠ 0 := by omega
        refine {
          isDigit_whole := fun c hc => hdigits c (List.mem_of_mem_take hc)
          isDigit_fraction := fun c hc => hdigits c (List.mem_of_mem_drop hc)
          whole_ne_nil := ?_
          head_whole := .inl ?_ }
        · rw [ne_eq, List.take_eq_nil_iff]
          exact not_or.mpr ⟨hwhole, hne⟩
        · rwa [List.head?_take, if_neg hwhole]
  · refine {
      isDigit_whole := fun c hc => hdigits c (List.mem_of_mem_take hc)
      isDigit_fraction := fun c hc => hdigits c (List.mem_of_mem_drop hc)
      whole_ne_nil := ?_
      head_whole := .inl ?_ }
    · rw [ne_eq, List.take_eq_nil_iff]
      exact not_or.mpr ⟨Nat.one_ne_zero, hne⟩
    · rwa [List.head?_take, if_neg Nat.one_ne_zero]

end Layout

theorem text_literal (style : NumberStyle) (decimal : Decimal) :
    (style.literal decimal).text = style.decimalText decimal := by
  unfold literal decimalText
  rw [text_layout (Text.digitsOfNumber_ne_nil decimal.digits)]
  rfl

theorem wellFormed_literal (hdigits : decimal.digits ≠ 0) : (style.literal decimal).WellFormed :=
  wellFormed_layout (fun _ => Text.isDigit_of_mem_digitsOfNumber)
    (Text.digitsOfNumber_ne_nil decimal.digits) (Text.head?_digitsOfNumber_ne hdigits)

/-- The decimal that a style spells: a whole number that is written positionally is spelled with
all its zeros, and with the one after its point if the style has one. -/
def spelled (style : NumberStyle) (decimal : Decimal) : Decimal :=
  if (style.least ≤ leading decimal ∧ leading decimal ≤ style.greatest) ∧ 0 ≤ decimal.exponent then
    { decimal with
      digits := decimal.digits * Decimal.tenTo (decimal.exponent.toNat + style.wholePlaces)
      exponent := -style.wholePlaces }
  else decimal

theorem decimal_literal (style : NumberStyle) (decimal : Decimal) :
    (style.literal decimal).decimal decimal.negative = style.spelled decimal := by
  have hdigits := Text.numberOfDigits_digitsOfNumber decimal.digits
  unfold literal spelled layout
  have hleading : leading decimal =
    decimal.exponent + (Text.digitsOfNumber decimal.digits).length - 1 := rfl
  have hpositive := List.length_pos_iff.mpr (Text.digitsOfNumber_ne_nil decimal.digits)
  generalize Text.digitsOfNumber decimal.digits = digits at *
  generalize leading decimal = exponent at *
  simp only
  by_cases hpositional : style.least ≤ exponent ∧ exponent ≤ style.greatest
  · rw [if_pos hpositional]
    by_cases hsmall : exponent < 0
    · rw [if_pos hsmall, if_neg (by omega)]
      apply Decimal.ofParts_eq
      · rw [← List.singleton_append, ← List.append_assoc]
        exact (Text.numberOfDigits_zeros_append (_ + 1) digits).trans hdigits
      · simp only [Option.getD_none, List.length_append, List.length_replicate]
        omega
    · rw [if_neg hsmall]
      by_cases hwhole : digits.length ≤ (exponent + 1).toNat
      · rw [if_pos hwhole, if_pos ⟨hpositional, by omega⟩]
        have hzeros : (exponent + 1).toNat - digits.length = decimal.exponent.toNat := by omega
        apply Decimal.ofParts_eq
        · rw [List.append_assoc, List.replicate_append_replicate, hzeros,
            Text.numberOfDigits_append_zeros, hdigits]
        · simp
      · rw [if_neg hwhole, if_neg (by omega)]
        apply Decimal.ofParts_eq
        · rw [List.take_append_drop, hdigits]
        · simp only [Option.getD_none, List.length_drop]
          omega
  · rw [if_neg hpositional, if_neg (fun h => hpositional h.1)]
    apply Decimal.ofParts_eq
    · rw [List.take_append_drop, hdigits]
    · simp only [Option.getD_some, List.length_drop]
      omega

theorem nearestRank_spelled (style : NumberStyle) (decimal : Decimal) :
    (style.spelled decimal).nearestRank = decimal.nearestRank := by
  unfold spelled
  split
  · next hwhole =>
    rw [Decimal.nearestRank_mul_tenTo]
    congr
    omega
  · rfl

/-! ## Finite numbers -/

/-- The parts of the text of a magnitude. -/
def magnitudeLiteral (style : NumberStyle) (negative : Bool) (rank : ℕ) : Literal :=
  if rank = 0 then ⟨['0'], List.replicate style.wholePlaces '0', none⟩
  else style.literal (Number.shortest style.tie negative rank)

theorem finiteText_eq (style : NumberStyle) (negative : Bool) (rank : ℕ) :
    style.finiteText negative rank =
      (if negative && (style.signedZero || rank != 0) then ['-'] else []) ++
        (style.magnitudeLiteral negative rank).text := by
  unfold finiteText magnitudeLiteral
  by_cases hzero : rank = 0
  · rw [if_pos hzero, if_pos hzero, hzero]
    unfold wholePlaces
    cases style.wholePoint <;> cases style.signedZero <;> cases negative <;> rfl
  · rw [if_neg hzero, if_neg hzero, text_literal]
    simp [hzero]

variable {rank : ℕ}

theorem digits_shortest_ne_zero (tie : Number.Tie) (negative : Bool) (hrank : rank ≠ 0) :
    (Number.shortest tie negative rank).digits ≠ 0 := by
  apply Decimal.digits_ne_zero
  rwa [Number.nearestRank_shortest]

theorem wellFormed_magnitudeLiteral (style : NumberStyle) (negative : Bool) (rank : ℕ) :
    (style.magnitudeLiteral negative rank).WellFormed := by
  unfold magnitudeLiteral
  split
  · exact {
      isDigit_whole := List.forall_mem_singleton.mpr rfl
      isDigit_fraction := by
        intro c hc
        rw [List.eq_of_mem_replicate hc]
        rfl
      whole_ne_nil := List.cons_ne_nil _ _
      head_whole := .inr rfl }
  · next hrank => exact wellFormed_literal (digits_shortest_ne_zero _ negative hrank)

theorem decimal_magnitudeLiteral (style : NumberStyle) (negative : Bool) (hrank : rank ≠ 0) :
    (style.magnitudeLiteral negative rank).decimal negative =
      style.spelled (Number.shortest style.tie negative rank) := by
  have hdecimal := style.decimal_literal (Number.shortest style.tie negative rank)
  rw [Number.negative_shortest] at hdecimal
  rw [magnitudeLiteral, if_neg hrank, hdecimal]

theorem decimal_magnitudeLiteral_zero (style : NumberStyle) (negative : Bool) :
    (style.magnitudeLiteral negative 0).decimal negative = ⟨negative, 0, -style.wholePlaces⟩ := by
  rw [magnitudeLiteral, if_pos rfl]
  apply Decimal.ofParts_eq
  · exact (Text.numberOfDigits_append_zeros ['0'] _).trans (Nat.zero_mul _)
  · simp

/-- The text of a magnitude spells a decimal that rounds to it. -/
theorem nearestRank_magnitudeLiteral (style : NumberStyle) (negative : Bool) (rank : ℕ) :
    ((style.magnitudeLiteral negative rank).decimal negative).nearestRank = rank := by
  by_cases hrank : rank = 0
  · rw [hrank, decimal_magnitudeLiteral_zero, Decimal.nearestRank, Nat.zero_mul]
    exact Number.nearestRank_zero (Decimal.tenTo_pos _)
  · rw [style.decimal_magnitudeLiteral negative hrank, nearestRank_spelled]
    exact Number.nearestRank_shortest style.tie negative rank

end NumberStyle

end FormCheck
