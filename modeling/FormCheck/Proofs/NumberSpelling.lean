import FormCheck.Proofs.JsonSpelling
import FormCheck.Proofs.NumberLayout

/-!
# Numbers of documents

The text that is written for a finite number is read as a number, whatever
follows the value.  All its digits fit into the significand, so it is read as the
decimal that it spells, evaluated in steps.
-/

namespace FormCheck

namespace Json

/-! ## Reading the parts of a literal -/

/-- A text that does not continue a run of digits. -/
def EndsRun (rest : List Char) : Prop :=
  ∀ c ∈ rest.head?, c.isDigit = false

section Parts

variable {digits rest : List Char}

theorem readDigits_append
    (hdigits : ∀ c ∈ digits, c.isDigit = true) (hne : digits ≠ []) (hrest : EndsRun rest) :
    readDigits (digits ++ rest) = some (digits, rest) := by
  obtain ⟨hrun, hafter⟩ := Text.digitRun_append hdigits hrest
  unfold readDigits
  rw [hrun, hafter]
  simp [hne]

theorem readWhole_append
    {literal : Literal} (hliteral : literal.WellFormed) (hrest : EndsRun rest) :
    readWhole (literal.whole ++ rest) = some (literal.whole, rest) := by
  unfold readWhole
  rw [readDigits_append hliteral.isDigit_whole hliteral.whole_ne_nil hrest]
  simp [hliteral.head_whole]

theorem readFraction_append
    (hdigits : ∀ c ∈ digits, c.isDigit = true) (hrest : EndsRun rest)
    (hpoint : ∀ c ∈ rest.head?, c ≠ '.') :
    readFraction (Literal.fractionText digits ++ rest) = some (digits, rest) := by
  cases digits with
  | nil =>
      change readFraction rest = some ([], rest)
      unfold readFraction
      split
      · exact absurd rfl (hpoint '.' rfl)
      · rfl
  | cons c digits => exact readDigits_append hdigits (List.cons_ne_nil c digits) hrest

theorem readExponent_append
    (exponent : Option Int) (hrest : EndsRun rest)
    (hmark : ∀ c ∈ rest.head?, c ≠ 'e' ∧ c ≠ 'E') :
    readExponent (Literal.exponentText exponent ++ rest) = some (exponent.getD 0, rest) := by
  cases exponent with
  | none =>
      change readExponent rest = some (0, rest)
      unfold readExponent
      split
      · exact absurd rfl (hmark 'e' rfl).1
      · exact absurd rfl (hmark 'E' rfl).2
      · rfl
  | some exponent =>
      have hdigits := readDigits_append
        (fun _ => Text.isDigit_of_mem_digitsOfNumber (n := exponent.natAbs))
        (Text.digitsOfNumber_ne_nil exponent.natAbs) hrest
      have hsigned := Number.signed_natAbs exponent
      unfold Literal.exponentText
      by_cases hsign : exponent < 0
      · rw [decide_eq_true hsign] at hsigned
        simp [hsign, readExponent, readExponentDigits, hdigits, hsigned,
          Text.numberOfDigits_digitsOfNumber]
      · rw [decide_eq_false hsign] at hsigned
        simp [hsign, readExponent, readExponentDigits, hdigits, hsigned,
          Text.numberOfDigits_digitsOfNumber]

theorem endsRun_exponentText (exponent : Option Int) (hrest : EndsRun rest) :
    EndsRun (Literal.exponentText exponent ++ rest) := by
  cases exponent with
  | none => exact hrest
  | some exponent =>
      intro c hc
      obtain rfl : 'e' = c := Option.some.inj hc
      rfl

theorem endsRun_fractionText (digits : List Char) (hrest : EndsRun rest) :
    EndsRun (Literal.fractionText digits ++ rest) := by
  cases digits with
  | nil => exact hrest
  | cons digit digits =>
      intro c hc
      obtain rfl : '.' = c := Option.some.inj hc
      rfl

/-- What may follow a value does not continue a number. -/
theorem stops_of_ends (hrest : Ends rest) :
    EndsRun rest ∧ ∀ c ∈ rest.head?, c ≠ '.' ∧ c ≠ 'e' ∧ c ≠ 'E' := by
  have hhead : ∀ c ∈ rest.head?, c.isDigit = false ∧ c ≠ '.' ∧ c ≠ 'e' ∧ c ≠ 'E' := by
    intro c hc
    rcases hrest c hc with hspace | rfl | rfl | rfl
    · simp only [isSpace, Bool.or_eq_true, beq_iff_eq] at hspace
      rcases hspace with ((rfl | rfl) | rfl) | rfl <;> decide
    · decide
    · decide
    · decide
  exact ⟨fun c hc => (hhead c hc).1, fun c hc => (hhead c hc).2⟩

theorem readMagnitude_text
    {literal : Literal} (hliteral : literal.WellFormed) (negative : Bool) (hrest : Ends rest) :
    readMagnitude negative (literal.text ++ rest) =
      some (numberOfParts negative literal.whole literal.fraction (literal.exponent.getD 0),
        rest) := by
  obtain ⟨hrun, hstop⟩ := stops_of_ends hrest
  have hexponentRun := endsRun_exponentText literal.exponent hrun
  have hfractionRun := endsRun_fractionText literal.fraction hexponentRun
  have hexponent := readExponent_append literal.exponent hrun fun c hc => (hstop c hc).2
  have hfraction := readFraction_append hliteral.isDigit_fraction hexponentRun (by
    cases hmark : literal.exponent with
    | none => exact fun c hc => (hstop c hc).1
    | some exponent =>
        intro c hc
        obtain rfl : 'e' = c := Option.some.inj hc
        decide)
  have hwhole := readWhole_append hliteral hfractionRun
  unfold readMagnitude Literal.text
  rw [List.append_assoc, List.append_assoc, hwhole]
  simp [hfraction, hexponent]

end Parts

/-! ## The significand -/

/-- Digits that fit into the significand are all taken. -/
theorem takeDigits_eq
    {digits : List Char} {significand : ℕ}
    (hfit : Nat.ofDigitChars 10 digits significand ≤ greatestSignificand) :
    takeDigits significand digits = (Nat.ofDigitChars 10 digits significand, []) := by
  induction digits generalizing significand with
  | nil => rw [takeDigits, Nat.ofDigitChars_nil]
  | cons c digits ih =>
      rw [Nat.ofDigitChars_cons] at hfit ⊢
      rw [takeDigits, if_pos ((Text.le_ofDigitChars digits _).trans hfit), ih hfit]

section Significand

variable {literal : Literal} {negative : Bool}

theorem decimalOfParts_eq (hfit : (literal.decimal negative).digits ≤ greatestSignificand) :
    decimalOfParts negative literal.whole literal.fraction (literal.exponent.getD 0) =
      literal.decimal negative := by
  have hall : Nat.ofDigitChars 10 literal.fraction (Nat.ofDigitChars 10 literal.whole 0) =
      (literal.decimal negative).digits := (Nat.ofDigitChars_append 0).symm
  have hwhole : Nat.ofDigitChars 10 literal.whole 0 ≤ greatestSignificand :=
    (Text.le_ofDigitChars literal.fraction _).trans (hall.trans_le hfit)
  unfold decimalOfParts
  simp only [takeDigits_eq hwhole, takeDigits_eq (hall.trans_le hfit), hall, List.length_nil,
    Nat.cast_zero, add_zero]
  rfl

/-- A literal whose digits fit into the significand is read as the decimal that it denotes,
evaluated in steps. -/
theorem numberOfParts_eq (hfit : (literal.decimal negative).digits ≤ greatestSignificand) :
    numberOfParts negative literal.whole literal.fraction (literal.exponent.getD 0) =
      (literal.decimal negative).scaled := by
  rw [numberOfParts, decimalOfParts_eq hfit]

end Significand

end Json

/-! ## Reading numbers again -/

namespace NumberStyle

variable {decimal : Decimal}

theorem digits_spelled_document_le (hdigits : decimal.digits ≤ 10 ^ 17) :
    (document.spelled decimal).digits ≤ 10 ^ 17 := by
  unfold spelled
  split
  · next hwhole =>
    have hdigit := (Number.tenTo_digitCount decimal.digits).1
    have hleading : leading decimal =
      decimal.exponent + Text.digitCount decimal.digits - 1 := rfl
    have hgreatest : document.greatest = 15 := rfl
    have hplaces : document.wholePlaces = 1 := rfl
    rw [hplaces]
    calc decimal.digits * Decimal.tenTo (decimal.exponent.toNat + 1)
        ≤ Decimal.tenTo (Text.digitCount decimal.digits) *
            Decimal.tenTo (decimal.exponent.toNat + 1) := Nat.mul_le_mul_right _ hdigit.le
      _ = Decimal.tenTo (Text.digitCount decimal.digits + (decimal.exponent.toNat + 1)) :=
          (Decimal.tenTo_add _ _).symm
      _ ≤ 10 ^ 17 := Nat.pow_le_pow_right (by decide) (by omega)
  · exact hdigits

theorem digits_magnitudeLiteral_document_le (negative : Bool) (rank : ℕ) :
    ((document.magnitudeLiteral negative rank).decimal negative).digits ≤ 10 ^ 17 := by
  by_cases hrank : rank = 0
  · rw [hrank, decimal_magnitudeLiteral_zero]
    exact Nat.zero_le _
  · rw [document.decimal_magnitudeLiteral negative hrank]
    exact digits_spelled_document_le (Number.digits_shortest_le _ negative rank)

end NumberStyle

namespace Number

/-- The decimal that the text of a magnitude spells in a document. -/
def written (negative : Bool) (rank : ℕ) : Decimal :=
  (NumberStyle.document.magnitudeLiteral negative rank).decimal negative

/-- The number as which the text of a finite number is read from a document: the decimal that it
spells, evaluated in steps. -/
def reread : Number → Number
  | .finite negative magnitude => (written negative magnitude).scaled
  | n => n

end Number

namespace Json

theorem readNumber_of_isDigit {c : Char} (hc : c.isDigit = true) (s : List Char) :
    readNumber (c :: s) = readMagnitude false (c :: s) := by
  unfold readNumber
  split
  · next hminus =>
    rw [(List.cons.inj hminus).1] at hc
    exact absurd hc (by decide)
  · rfl

theorem readNumber_text
    {literal : Literal} (hliteral : literal.WellFormed) (negative : Bool) {rest : List Char}
    (hrest : Ends rest) :
    readNumber ((if negative then ['-'] else []) ++ literal.text ++ rest) =
      some (numberOfParts negative literal.whole literal.fraction (literal.exponent.getD 0),
        rest) := by
  have hread := readMagnitude_text hliteral negative hrest
  cases negative with
  | true => exact hread
  | false =>
      obtain ⟨c, whole, hwhole⟩ := List.exists_cons_of_ne_nil hliteral.whole_ne_nil
      have hdigit : c.isDigit = true :=
        hliteral.isDigit_whole c (by rw [hwhole]; exact List.mem_cons_self)
      have htext : literal.text ++ rest =
          c :: (whole ++ Literal.fractionText literal.fraction ++
            Literal.exponentText literal.exponent ++ rest) := by
        rw [Literal.text, hwhole]
        rfl
      rw [htext] at hread
      simp only [Bool.false_eq_true, if_false, List.nil_append]
      rw [htext, readNumber_of_isDigit hdigit]
      exact hread

theorem readsAs_numberText (negative : Bool) (magnitude : Fin Number.magnitudeCount) :
    ReadsAs (numberText (.finite negative magnitude))
      (Number.finite negative magnitude).reread := by
  intro rest hrest
  have hwell := NumberStyle.document.wellFormed_magnitudeLiteral negative magnitude
  have hdigits := NumberStyle.digits_magnitudeLiteral_document_le negative magnitude
  have hread := readNumber_text hwell negative hrest
  rw [numberOfParts_eq (hdigits.trans (by decide))] at hread
  have htext : numberText (.finite negative magnitude) =
      (if negative then ['-'] else []) ++
        (NumberStyle.document.magnitudeLiteral negative magnitude).text := by
    change NumberStyle.document.finiteText negative magnitude = _
    rw [NumberStyle.finiteText_eq]
    cases negative <;> rfl
  rw [htext]
  exact hread

end Json

end FormCheck
