import FormCheck.Text.Scan
import Mathlib.Algebra.Order.Ring.Nat
import Mathlib.Data.List.DropRight

/-!
# Runs of digits and of blanks

Numbers are written as runs of digits, and a run is read up to the first
character that is not a digit or up to the length that is asked for.  Blanks are
taken away at both ends of a text and nowhere else.
-/

namespace FormCheck.Text

/-! ## Written digits -/

section WrittenDigits

variable {n length : ℕ} {c : Char}

theorem isDigit_of_mem_digitsOfNumber (hc : c ∈ digitsOfNumber n) : c.isDigit = true :=
  Nat.isDigit_of_mem_toDigits (by decide) (by decide) hc

theorem digitsOfNumber_ne_nil (n : ℕ) : digitsOfNumber n ≠ [] :=
  Nat.toDigits_ne_nil

theorem head?_append_of_ne_nil {s : List Char} (hs : s ≠ []) (t : List Char) :
    (s ++ t).head? = s.head? := by
  cases s with
  | nil => exact absurd rfl hs
  | cons c s => rfl

theorem digitChar_ne_zero : ∀ digit < 10, digit ≠ 0 → Nat.digitChar digit ≠ '0' := by
  decide

/-- The first digit of a positive number is not zero. -/
theorem head?_digitsOfNumber_ne (hn : n ≠ 0) : (digitsOfNumber n).head? ≠ some '0' := by
  induction n using Nat.strongRecOn with
  | _ n ih =>
      unfold digitsOfNumber
      rw [Nat.toDigits_eq_if (by decide)]
      split
      · next hsmall =>
        rw [List.head?_cons]
        exact fun hhead => digitChar_ne_zero n hsmall hn (Option.some.inj hhead)
      · next hlarge =>
        rw [head?_append_of_ne_nil Nat.toDigits_ne_nil]
        exact ih (n / 10) (by omega) (by omega)

/-- The last digit of a number that is not a multiple of ten is not zero. -/
theorem getLast?_digitsOfNumber_ne (hn : n % 10 ≠ 0) :
    (digitsOfNumber n).getLast? ≠ some '0' := by
  have hlast := digitChar_ne_zero (n % 10) (Nat.mod_lt n (by decide)) hn
  unfold digitsOfNumber
  rw [Nat.toDigits_eq_if (by decide)]
  split
  · next hsmall =>
    rw [Nat.mod_eq_of_lt hsmall] at hlast
    exact fun hzero => hlast (Option.some.inj hzero)
  · rw [List.getLast?_concat]
    exact fun hzero => hlast (Option.some.inj hzero)

theorem numberOfDigits_zeros_append (zeros : ℕ) (digits : List Char) :
    numberOfDigits (List.replicate zeros '0' ++ digits) = numberOfDigits digits := by
  unfold numberOfDigits
  rw [Nat.ofDigitChars_append, Nat.ofDigitChars_replicate_zero, Nat.mul_zero]

theorem numberOfDigits_paddedDigits (length n : ℕ) :
    numberOfDigits (paddedDigits length n) = n := by
  unfold paddedDigits
  rw [numberOfDigits_zeros_append, numberOfDigits_digitsOfNumber]

theorem isDigit_of_mem_paddedDigits (hc : c ∈ paddedDigits length n) : c.isDigit = true := by
  unfold paddedDigits at hc
  rw [List.mem_append] at hc
  cases hc with
  | inl hzero =>
      rw [List.eq_of_mem_replicate hzero]
      rfl
  | inr hdigit => exact isDigit_of_mem_digitsOfNumber hdigit

theorem paddedDigits_ne_nil (length n : ℕ) : paddedDigits length n ≠ [] :=
  List.append_ne_nil_of_right_ne_nil _ (digitsOfNumber_ne_nil n)

theorem length_paddedDigits (hlength : 0 < length) (hn : n < 10 ^ length) :
    (paddedDigits length n).length = length := by
  have hshort : (digitsOfNumber n).length ≤ length :=
    (Nat.length_toDigits_le_iff (by decide) hlength).mpr hn
  unfold paddedDigits
  rw [List.length_append, List.length_replicate]
  omega

end WrittenDigits

/-! ## Read digits -/

theorem toNat_of_isDigit {c : Char} (hc : c.isDigit = true) : 48 ≤ c.toNat ∧ c.toNat ≤ 57 := by
  simp only [Char.isDigit, Bool.and_eq_true, decide_eq_true_eq] at hc
  exact ⟨UInt32.le_iff_toNat_le.mp hc.1, UInt32.le_iff_toNat_le.mp hc.2⟩

theorem toNat_of_isLower {c : Char} (hc : c.isLower = true) : 97 ≤ c.toNat ∧ c.toNat ≤ 122 := by
  have hbounds : (decide ('a'.val ≤ c.val) && decide (c.val ≤ 'z'.val)) = true := hc
  rw [Bool.and_eq_true, decide_eq_true_eq, decide_eq_true_eq] at hbounds
  exact ⟨UInt32.le_iff_toNat_le.mp hbounds.1, UInt32.le_iff_toNat_le.mp hbounds.2⟩

section ReadDigits

variable {digits rest : List Char}

theorem digitRun_append
    (hdigits : ∀ c ∈ digits, c.isDigit = true) (hrest : ∀ c ∈ rest.head?, c.isDigit = false) :
    digitRun (digits ++ rest) = digits ∧ afterDigits (digits ++ rest) = rest := by
  unfold digitRun afterDigits
  rw [List.takeWhile_append_of_pos hdigits, List.dropWhile_append_of_pos hdigits]
  cases rest with
  | nil => simp
  | cons c rest =>
      have hc : ¬ c.isDigit = true := by simp [hrest c rfl]
      rw [List.takeWhile_cons_of_neg hc, List.dropWhile_cons_of_neg hc, List.append_nil]
      exact ⟨rfl, rfl⟩

/-- As many digits as may be taken are read as a number, whatever follows them. -/
theorem number?_append
    {least : ℕ} (hdigits : ∀ c ∈ digits, c.isDigit = true) (hleast : least ≤ digits.length)
    (rest : List Char) :
    number? least digits.length (digits ++ rest) = some (numberOfDigits digits, rest) := by
  have hrun : (digitRun (digits ++ rest)).take digits.length = digits := by
    unfold digitRun
    rw [List.takeWhile_append_of_pos hdigits, List.take_left]
  unfold number?
  simp only [hrun]
  rw [if_neg (by omega), List.drop_left]

/-- Fewer digits than may be taken are read as a number up to the character that ends them. -/
theorem number?_append_of_run
    {least most : ℕ} (hdigits : ∀ c ∈ digits, c.isDigit = true)
    (hrest : ∀ c ∈ rest.head?, c.isDigit = false) (hleast : least ≤ digits.length)
    (hmost : digits.length ≤ most) :
    number? least most (digits ++ rest) = some (numberOfDigits digits, rest) := by
  unfold number?
  rw [(digitRun_append hdigits hrest).1]
  simp only [List.take_of_length_le hmost]
  rw [if_neg (by omega), List.drop_left]

theorem number?_paddedDigits
    {least length n : ℕ} (hlength : 0 < length) (hn : n < 10 ^ length) (hleast : least ≤ length)
    (rest : List Char) :
    number? least length (paddedDigits length n ++ rest) = some (n, rest) := by
  have hcount := length_paddedDigits hlength hn
  have hread := number?_append (fun _ => isDigit_of_mem_paddedDigits)
    (hcount.symm ▸ hleast) rest
  rwa [hcount, numberOfDigits_paddedDigits] at hread

/-- A number that is read was written in digits, at least and at most as many as asked for. -/
theorem number?_eq_some {least most n : ℕ} {s rest : List Char}
    (hread : number? least most s = some (n, rest)) :
    ∃ digits, s = digits ++ rest ∧ (∀ c ∈ digits, c.isDigit = true) ∧
      least ≤ digits.length ∧ digits.length ≤ most ∧ n = numberOfDigits digits := by
  have hstart : (digitRun s).take most <+: s :=
    (List.take_prefix most _).trans (List.takeWhile_prefix _)
  have hdigits : ∀ c ∈ (digitRun s).take most, c.isDigit = true :=
    fun c hc => isDigit_of_mem_digitRun (List.mem_of_mem_take hc)
  have hmost : ((digitRun s).take most).length ≤ most := List.length_take_le most _
  obtain ⟨left, hleft⟩ := hstart
  unfold number? at hread
  simp only at hread
  generalize (digitRun s).take most = digits at *
  split at hread
  · cases hread
  · next hlong =>
    rw [← hleft, List.drop_left] at hread
    cases hread
    exact ⟨digits, hleft.symm, hdigits, by omega, hmost, rfl⟩

/-- A number does not get smaller when digits are put behind it. -/
theorem le_ofDigitChars (digits : List Char) (n : ℕ) : n ≤ Nat.ofDigitChars 10 digits n := by
  rw [Nat.ofDigitChars_eq_ofDigitChars_zero]
  have hpower : 0 < 10 ^ digits.length := Nat.pow_pos (by decide)
  have hscaled := Nat.le_mul_of_pos_left n hpower
  omega

theorem ofDigitChars_lt (hdigits : ∀ c ∈ digits, c.isDigit = true) (n : ℕ) :
    Nat.ofDigitChars 10 digits n < (n + 1) * 10 ^ digits.length := by
  induction digits generalizing n with
  | nil => simp
  | cons c digits ih =>
      have hrange := toNat_of_isDigit (hdigits c List.mem_cons_self)
      have hdigit : 10 * n + (c.toNat - '0'.toNat) + 1 ≤ (n + 1) * 10 := by
        have hzero : '0'.toNat = 48 := rfl
        omega
      rw [Nat.ofDigitChars_cons, List.length_cons, Nat.pow_succ']
      calc Nat.ofDigitChars 10 digits (10 * n + (c.toNat - '0'.toNat))
          < (10 * n + (c.toNat - '0'.toNat) + 1) * 10 ^ digits.length :=
            ih (fun d hd => hdigits d (List.mem_cons_of_mem c hd)) _
        _ ≤ (n + 1) * 10 * 10 ^ digits.length := Nat.mul_le_mul_right _ hdigit
        _ = (n + 1) * (10 * 10 ^ digits.length) := Nat.mul_assoc _ _ _

theorem numberOfDigits_lt (hdigits : ∀ c ∈ digits, c.isDigit = true) :
    numberOfDigits digits < 10 ^ digits.length := by
  have hbound := ofDigitChars_lt hdigits 0
  rwa [Nat.zero_add, Nat.one_mul] at hbound

end ReadDigits

/-! ## Digits are no letters and no blanks -/

theorem toLower_of_isDigit {c : Char} (hc : c.isDigit = true) : c.toLower = c := by
  have hrange := toNat_of_isDigit hc
  unfold Char.toLower
  rw [dif_neg]
  intro hupper
  have hletter : 65 ≤ c.toNat := UInt32.le_iff_toNat_le.mp hupper.1
  omega

theorem isBlank_of_isDigit {c : Char} (hc : c.isDigit = true) : isBlank c = false := by
  have hrange := toNat_of_isDigit hc
  simp only [isBlank, Bool.or_eq_false_iff, Bool.and_eq_false_iff, decide_eq_false_iff_not,
    beq_eq_false_iff_ne]
  omega

/-! ## Blanks at the ends -/

theorem trimStart_trimStart (s : List Char) : trimStart (trimStart s) = trimStart s :=
  List.dropWhile_idempotent isBlank s

/-- A text with digits in front starts with one of them. -/
theorem exists_digit_cons {digits : List Char} (hne : digits ≠ [])
    (hdigits : ∀ c ∈ digits, c.isDigit = true) (rest : List Char) :
    ∃ c more, digits ++ rest = c :: more ∧ c.isDigit = true := by
  cases digits with
  | nil => exact absurd rfl hne
  | cons c digits => exact ⟨c, digits ++ rest, rfl, hdigits c List.mem_cons_self⟩

theorem not_blank_head_of_digits {digits : List Char} (hne : digits ≠ [])
    (hdigits : ∀ c ∈ digits, c.isDigit = true) (rest : List Char) :
    ∀ c ∈ (digits ++ rest).head?, isBlank c = false := by
  cases digits with
  | nil => exact absurd rfl hne
  | cons digit digits =>
      intro c hc
      rw [← Option.some.inj hc]
      exact isBlank_of_isDigit (hdigits digit List.mem_cons_self)

theorem dropWhile_isBlank_eq_self {s : List Char} (hfirst : ∀ c ∈ s.head?, isBlank c = false) :
    s.dropWhile isBlank = s := by
  cases s with
  | nil => rfl
  | cons c s => exact trimStart_cons_of_not_blank (hfirst c rfl)

/-- A text that neither starts nor ends with a blank is kept as it is. -/
theorem trim_eq_self
    {s : List Char} (hfirst : ∀ c ∈ s.head?, isBlank c = false)
    (hlast : ∀ c ∈ s.getLast?, isBlank c = false) : trim s = s := by
  unfold trim trimEnd trimStart
  rw [dropWhile_isBlank_eq_self hfirst]
  rw [← List.head?_reverse] at hlast
  rw [dropWhile_isBlank_eq_self hlast, List.reverse_reverse]

end FormCheck.Text
