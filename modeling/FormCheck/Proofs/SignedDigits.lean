import FormCheck.Argument
import FormCheck.Proofs.TextRuns

/-!
# Signed digits in arguments

Integers in arguments are written in digits, of which there can be any number, with at
most one sign before them.  The rules about lengths and dates look for such an integer
in front of an argument: blanks may stand before it and anything after it.  They read it
when it is in the range of integers of 64 bits with a sign, and not otherwise.
-/

namespace FormCheck

/-- Digits with the sign that is written before them, if there is one: `true` for a minus. -/
structure SignedDigits where
  minus : Option Bool
  digits : List Char
  digits_ne_nil : digits ≠ []
  isDigit_digits : ∀ c ∈ digits, c.isDigit = true

namespace SignedDigits

def signText : Option Bool → List Char
  | none => []
  | some true => ['-']
  | some false => ['+']

def text (number : SignedDigits) : List Char :=
  signText number.minus ++ number.digits

def value (number : SignedDigits) : ℤ :=
  Number.signed (number.minus.getD false) (Text.numberOfDigits number.digits)

/-- The digits of a number behind a sign or without one. -/
def ofNumber (minus : Option Bool) (n : ℕ) : SignedDigits where
  minus := minus
  digits := Text.digitsOfNumber n
  digits_ne_nil := Text.digitsOfNumber_ne_nil n
  isDigit_digits := fun _ => Text.isDigit_of_mem_digitsOfNumber

theorem value_ofNumber (minus : Option Bool) (n : ℕ) :
    (ofNumber minus n).value = Number.signed (minus.getD false) n :=
  congrArg _ (Text.numberOfDigits_digitsOfNumber n)

theorem splitSign_signText
    (minus : Option Bool) {rest : List Char} (hrest : ∀ c ∈ rest.head?, c ≠ '-' ∧ c ≠ '+') :
    Argument.splitSign (signText minus ++ rest) = (minus.getD false, rest) := by
  cases minus with
  | some negative => cases negative <;> rfl
  | none =>
      change Argument.splitSign rest = (false, rest)
      unfold Argument.splitSign
      split
      · exact absurd rfl (hrest '-' rfl).1
      · exact absurd rfl (hrest '+' rfl).2
      · rfl

theorem exists_signText_of_splitSign (s : List Char) :
    ∃ minus, s = signText minus ++ (Argument.splitSign s).2 ∧
      (Argument.splitSign s).1 = minus.getD false ∧
      (minus = none → ∀ c ∈ s.head?, c ≠ '-' ∧ c ≠ '+') := by
  unfold Argument.splitSign
  split
  · exact ⟨some true, rfl, rfl, nofun⟩
  · exact ⟨some false, rfl, rfl, nofun⟩
  · next hminus hplus =>
    refine ⟨none, rfl, rfl, ?_⟩
    intro _ c hc
    obtain ⟨rest, rfl⟩ := List.head?_eq_some_iff.mp (Option.mem_def.mp hc)
    constructor
    · rintro rfl
      exact hminus rest rfl
    · rintro rfl
      exact hplus rest rfl

theorem ne_sign_of_isDigit {c : Char} (hc : c.isDigit = true) : c ≠ '-' ∧ c ≠ '+' := by
  constructor
  · rintro rfl
    cases hc
  · rintro rfl
    cases hc

/-- A sign is no blank, so only without one the text behind it has to start with none. -/
theorem not_blank_head_signText_append
    {minus : Option Bool} {rest : List Char}
    (hrest : minus = none → ∀ c ∈ rest.head?, Text.isBlank c = false) :
    ∀ c ∈ (signText minus ++ rest).head?, Text.isBlank c = false := by
  intro c hc
  cases minus with
  | none => exact hrest rfl c hc
  | some negative =>
      cases negative with
      | true =>
          rw [← Option.some.inj hc]
          decide
      | false =>
          rw [← Option.some.inj hc]
          decide

variable (number : SignedDigits) (rest : List Char)

theorem head?_digits_append :
    ∀ c ∈ (number.digits ++ rest).head?, c.isDigit = true := by
  obtain ⟨c, more, hcons, hc⟩ :=
    Text.exists_digit_cons number.digits_ne_nil number.isDigit_digits rest
  rw [hcons]
  intro d hd
  rwa [← Option.some.inj hd]

theorem splitSign_text_append :
    Argument.splitSign (number.text ++ rest) =
      (number.minus.getD false, number.digits ++ rest) := by
  rw [text, List.append_assoc]
  apply splitSign_signText
  intro c hc
  exact ne_sign_of_isDigit (number.head?_digits_append rest c hc)

theorem not_blank_head_text_append : ∀ c ∈ (number.text ++ rest).head?, Text.isBlank c = false := by
  rw [text, List.append_assoc]
  apply not_blank_head_signText_append
  intro _ c hc
  exact Text.isBlank_of_isDigit (number.head?_digits_append rest c hc)

end SignedDigits

/-! ## Integers in front -/

/-- An argument with an integer in front: its run of digits ends before what follows. -/
structure LeadingInteger where
  blanks : List Char
  number : SignedDigits
  rest : List Char
  isBlank_blanks : ∀ c ∈ blanks, Text.isBlank c = true
  ends : ∀ c ∈ rest.head?, c.isDigit = false

namespace LeadingInteger

def text (leading : LeadingInteger) : List Char :=
  leading.blanks ++ (leading.number.text ++ leading.rest)

end LeadingInteger

namespace Argument

variable {arg : String} {n : ℤ}

/-- The integer in front of an argument, with no limit on its size. -/
def StartsWith (arg : String) (n : ℤ) : Prop :=
  ∃ leading : LeadingInteger, leading.text = arg.toList ∧ leading.number.value = n

/-- Reads the integer in front of an argument, whatever its size is. -/
def leadingInteger? (arg : String) : Option ℤ :=
  let signed := splitSign (Text.trimStart arg.toList)
  let digits := Text.digitRun signed.2
  if digits.isEmpty then none
  else some (Number.signed signed.1 (Text.numberOfDigits digits))

theorem leadingInteger?_of_startsWith (hstarts : StartsWith arg n) :
    leadingInteger? arg = some n := by
  obtain ⟨leading, htext, rfl⟩ := hstarts
  have htrim : Text.trimStart arg.toList = leading.number.text ++ leading.rest := by
    rw [← htext, LeadingInteger.text, Text.trimStart,
      List.dropWhile_append_of_pos leading.isBlank_blanks]
    exact Text.dropWhile_isBlank_eq_self (leading.number.not_blank_head_text_append _)
  have hrun := (Text.digitRun_append leading.number.isDigit_digits leading.ends).1
  unfold leadingInteger?
  simp only [htrim, SignedDigits.splitSign_text_append, hrun]
  rw [if_neg (by simp [leading.number.digits_ne_nil]), SignedDigits.value]

theorem startsWith_of_leadingInteger? (hread : leadingInteger? arg = some n) :
    StartsWith arg n := by
  obtain ⟨blanks, hblanks, harg⟩ := Text.exists_blank_append_trimStart arg.toList
  obtain ⟨minus, hsign, hminus, -⟩ :=
    SignedDigits.exists_signText_of_splitSign (Text.trimStart arg.toList)
  unfold leadingInteger? at hread
  simp only [hminus] at hread
  generalize (splitSign (Text.trimStart arg.toList)).2 = s at *
  by_cases hnone : Text.digitRun s = []
  · simp [hnone] at hread
  · rw [if_neg (by simp [hnone])] at hread
    let leading : LeadingInteger := {
      blanks := blanks
      number := ⟨minus, Text.digitRun s, hnone, fun c => Text.isDigit_of_mem_digitRun⟩
      rest := Text.afterDigits s
      isBlank_blanks := hblanks
      ends := by
        intro c hc
        have hend := List.head?_dropWhile_not Char.isDigit s
        rw [Text.afterDigits] at hc
        rw [Option.mem_def.mp hc] at hend
        simpa using hend }
    refine ⟨leading, ?_, Option.some.inj hread⟩
    rw [harg, hsign, LeadingInteger.text, SignedDigits.text, List.append_assoc,
      Text.digitRun_append_afterDigits]

theorem startsWith_iff : StartsWith arg n ↔ leadingInteger? arg = some n :=
  ⟨leadingInteger?_of_startsWith, startsWith_of_leadingInteger?⟩

theorem StartsWith.unique {other : ℤ} (hn : StartsWith arg n) (hother : StartsWith arg other) :
    n = other := by
  rw [startsWith_iff] at hn hother
  exact Option.some.inj (hn.symm.trans hother)

/-- The integer in front is read if its size is within the limit. -/
theorem integer?_eq_some_iff :
    integer? arg = some n ↔ StartsWith arg n ∧ n.natAbs ≤ integerLimit := by
  rw [startsWith_iff]
  unfold integer? leadingInteger?
  simp only
  generalize splitSign (Text.trimStart arg.toList) = signed
  by_cases hnone : (Text.digitRun signed.2).isEmpty = true
  · simp [hnone]
  · by_cases hbeyond : integerLimit < Text.numberOfDigits (Text.digitRun signed.2)
    · rw [if_pos (.inr hbeyond), if_neg hnone]
      constructor
      · intro hread
        cases hread
      · rintro ⟨hvalue, hlimit⟩
        rw [← Option.some.inj hvalue, Number.natAbs_signed] at hlimit
        omega
    · rw [if_neg (not_or.mpr ⟨hnone, hbeyond⟩), if_neg hnone]
      constructor
      · intro hread
        rw [← Option.some.inj hread, Number.natAbs_signed]
        exact ⟨rfl, Nat.le_of_not_lt hbeyond⟩
      · exact And.left

end Argument

end FormCheck
