import FormCheck.Proofs.SignedDigits

/-!
# Decimals in arguments

An argument can spell a decimal in many ways: the point may stand before, among or after
the digits, and a sign and an exponent may be there or not.  Each of these literals is read
as the number nearest to the decimal that its digits spell.
-/

namespace FormCheck

/-- A decimal as an argument can spell it: digits with a point before, among or after them or
without one, a sign before them or none, and an exponent after them or none. -/
structure DecimalLiteral where
  minus : Option Bool
  whole : List Char
  fraction : Option (List Char)
  exponent : Option (Char × SignedDigits)
  isDigit_whole : ∀ c ∈ whole, c.isDigit = true
  isDigit_fraction : ∀ c ∈ fraction.getD [], c.isDigit = true
  mark_mem : ∀ part ∈ exponent, part.1 = 'e' ∨ part.1 = 'E'
  has_digit : whole ≠ [] ∨ fraction.getD [] ≠ []

namespace DecimalLiteral

def fractionText : Option (List Char) → List Char
  | none => []
  | some digits => '.' :: digits

def exponentText : Option (Char × SignedDigits) → List Char
  | none => []
  | some (mark, number) => mark :: number.text

variable (literal : DecimalLiteral)

def unsignedText : List Char :=
  literal.whole ++ (fractionText literal.fraction ++ exponentText literal.exponent)

def text : List Char :=
  SignedDigits.signText literal.minus ++ literal.unsignedText

def exponentValue : ℤ :=
  (literal.exponent.map fun part => part.2.value).getD 0

/-- The decimal that is read from a literal. -/
def decimal : Decimal :=
  .ofParts (literal.minus.getD false) literal.whole (literal.fraction.getD [])
    literal.exponentValue

/-! ## Reading a literal -/

theorem head?_unsignedText :
    ∃ c rest, literal.unsignedText = c :: rest ∧ (c.isDigit = true ∨ c = '.') := by
  unfold unsignedText
  cases hwhole : literal.whole with
  | cons c digits =>
      have hc := literal.isDigit_whole c (hwhole ▸ List.mem_cons_self)
      exact ⟨c, digits ++ _, rfl, .inl hc⟩
  | nil =>
      cases hfraction : literal.fraction with
      | some digits => exact ⟨'.', _, rfl, .inr rfl⟩
      | none =>
          have hdigit := literal.has_digit
          rw [hwhole, hfraction] at hdigit
          exact absurd hdigit (by simp)

/-- What follows the digits of a literal is no digit and no point. -/
theorem head?_exponentText :
    ∀ c ∈ (exponentText literal.exponent).head?, c.isDigit = false ∧ c ≠ '.' := by
  intro c hc
  have hmark : c = 'e' ∨ c = 'E' := by
    cases hexponent : literal.exponent with
    | none =>
        rw [hexponent] at hc
        cases hc
    | some part =>
        rw [hexponent] at hc
        rw [← Option.some.inj hc]
        exact literal.mark_mem part hexponent
  cases hmark with
  | inl hlower =>
      rw [hlower]
      decide
  | inr hupper =>
      rw [hupper]
      decide

theorem head?_fractionText :
    ∀ c ∈ (fractionText literal.fraction ++ exponentText literal.exponent).head?,
      c.isDigit = false := by
  intro c hc
  cases hfraction : literal.fraction with
  | none =>
      rw [hfraction] at hc
      exact (literal.head?_exponentText c hc).1
  | some digits =>
      rw [hfraction] at hc
      rw [← Option.some.inj hc]
      decide

theorem splitFraction_text :
    Argument.splitFraction (fractionText literal.fraction ++ exponentText literal.exponent) =
      (literal.fraction.getD [], exponentText literal.exponent) := by
  have hdigits := literal.isDigit_fraction
  cases hfraction : literal.fraction with
  | none =>
      change Argument.splitFraction (exponentText literal.exponent) =
        ([], exponentText literal.exponent)
      unfold Argument.splitFraction
      split
      · next rest hpoint =>
        exact absurd rfl (literal.head?_exponentText '.' (by rw [hpoint]; rfl)).2
      · rfl
  | some digits =>
      rw [hfraction] at hdigits
      have hrun := Text.digitRun_append hdigits fun c hc => (literal.head?_exponentText c hc).1
      rw [fractionText, List.cons_append, Argument.splitFraction]
      exact Prod.ext hrun.1 hrun.2

theorem exponent?_exponentText :
    Argument.exponent? (exponentText literal.exponent) = some literal.exponentValue := by
  unfold exponentValue
  cases hexponent : literal.exponent with
  | none => rfl
  | some part =>
      have hmark := literal.mark_mem part hexponent
      have hsplit := part.2.splitSign_text_append []
      have hall : part.2.digits.all Char.isDigit = true :=
        List.all_eq_true.mpr part.2.isDigit_digits
      rw [List.append_nil, List.append_nil] at hsplit
      rw [exponentText, Argument.exponent?, if_pos hmark]
      simp only [hsplit]
      rw [if_neg (by simp [hall, part.2.digits_ne_nil])]
      rfl

theorem decimal?_text :
    Argument.decimal? (literal.minus.getD false) literal.unsignedText = some literal.decimal := by
  have hrun := Text.digitRun_append literal.isDigit_whole literal.head?_fractionText
  unfold Argument.decimal? unsignedText
  rw [hrun.1, hrun.2]
  simp only [splitFraction_text, exponent?_exponentText]
  rw [if_neg]
  · rfl
  · have hdigit := literal.has_digit
    simp only [List.isEmpty_iff]
    tauto

theorem splitSign_text :
    Argument.splitSign literal.text = (literal.minus.getD false, literal.unsignedText) := by
  obtain ⟨c, rest, hcons, hc⟩ := literal.head?_unsignedText
  apply SignedDigits.splitSign_signText
  intro d hd
  rw [hcons] at hd
  rw [← Option.some.inj hd]
  cases hc with
  | inl hdigit => exact SignedDigits.ne_sign_of_isDigit hdigit
  | inr hpoint =>
      rw [hpoint]
      decide

/-- No literal is the name of a number, since it does not start with a letter. -/
theorem isNamed_unsignedText
    {name : String} (hname : name.toList.head?.any Char.isLower = true) :
    Argument.isNamed name literal.unsignedText = false := by
  obtain ⟨c, rest, hcons, hc⟩ := literal.head?_unsignedText
  have hletter : c.toLower.isLower = false := by
    cases hc with
    | inl hdigit =>
        rw [Text.toLower_of_isDigit hdigit, Bool.eq_false_iff]
        intro hlower
        have hdigits := Text.toNat_of_isDigit hdigit
        have hletters := Text.toNat_of_isLower hlower
        omega
    | inr hpoint =>
        rw [hpoint]
        decide
  apply decide_eq_false
  intro hsame
  rw [← hsame, hcons, List.map_cons, List.head?_cons, Option.any_some, hletter] at hname
  cases hname

theorem number?_text : Argument.number? literal.text = some literal.decimal.toNumber := by
  unfold Argument.number?
  have hinf : Argument.isNamed "inf" literal.unsignedText = false :=
    literal.isNamed_unsignedText (by decide)
  have hinfinity : Argument.isNamed "infinity" literal.unsignedText = false :=
    literal.isNamed_unsignedText (by decide)
  have hnan : Argument.isNamed "nan" literal.unsignedText = false :=
    literal.isNamed_unsignedText (by decide)
  simp only [splitSign_text, hinf, hinfinity, hnan, decimal?_text]
  rfl

end DecimalLiteral

end FormCheck
