/-!
# Runs of decimal digits

Digits are the ten characters from `0` to `9`; digits of other scripts are
ordinary characters.  A run of digits is read as a number in base ten, with no
limit on its length.  Escapes use digits in base sixteen.
-/

namespace FormCheck.Text

def digitRun (s : List Char) : List Char :=
  s.takeWhile Char.isDigit

def afterDigits (s : List Char) : List Char :=
  s.dropWhile Char.isDigit

/-- The number that a list of digits denotes in base ten; no digits denote zero. -/
def numberOfDigits (digits : List Char) : Nat :=
  Nat.ofDigitChars 10 digits 0

def digitsOfNumber (n : Nat) : List Char :=
  Nat.toDigits 10 n

def digitCount (n : Nat) : Nat :=
  (digitsOfNumber n).length

/-- The digits of a number in base ten, filled up with leading zeros to a length. -/
def paddedDigits (length n : Nat) : List Char :=
  let digits := digitsOfNumber n
  List.replicate (length - digits.length) '0' ++ digits

def hexValue? (c : Char) : Option Nat :=
  if c.isDigit then some (c.toNat - '0'.toNat)
  else if 'a' ≤ c ∧ c ≤ 'f' then some (c.toNat - 'a'.toNat + 10)
  else if 'A' ≤ c ∧ c ≤ 'F' then some (c.toNat - 'A'.toNat + 10)
  else none

/-- The number whose digits in a base have the given values, highest first. -/
def numberInBase (base : Nat) (values : List Nat) : Nat :=
  values.foldl (fun n value => n * base + value) 0

/-- The number written by the digits at the front of a text, of which at least `least` have to be
there and at most `most` are taken, and what follows them. -/
def number? (least most : Nat) (s : List Char) : Option (Nat × List Char) :=
  let digits := (digitRun s).take most
  if digits.length < least then none
  else some (numberOfDigits digits, s.drop digits.length)

theorem digitRun_append_afterDigits (s : List Char) : digitRun s ++ afterDigits s = s :=
  List.takeWhile_append_dropWhile

theorem isDigit_of_mem_digitRun {s : List Char} {c : Char} (hmem : c ∈ digitRun s) :
    c.isDigit = true :=
  List.all_eq_true.mp List.all_takeWhile c hmem

theorem numberOfDigits_digitsOfNumber (n : Nat) : numberOfDigits (digitsOfNumber n) = n :=
  Nat.ofDigitChars_toDigits (by decide) (by decide)

end FormCheck.Text
