import FormCheck.Argument

/-!
# Integers in words

The integer in front of an argument, collected in a word of 64 bits with a sign.  Taking
a digit is checked for overflow, the product with the sign is not.
-/

namespace FormCheck.Argument

/-- The word of an integer, if it is one of those from `-2 ^ 63` to `2 ^ 63 - 1`. -/
def word? (n : Int) : Option Int64 :=
  if -integerLimit - 1 ≤ n ∧ n ≤ integerLimit then some (Int64.ofInt n) else none

/-- Puts a digit behind the others, unless the product with ten or the sum overflows. -/
def appendDigit? (word : Int64) (digit : Char) : Option Int64 := do
  let tens ← word? (word.toInt * 10)
  word? (tens.toInt + (digit.toNat - '0'.toNat : Nat))

def collect? (digits : List Char) : Option Int64 :=
  digits.foldlM appendDigit? 0

def signWord (negative : Bool) : Int64 :=
  if negative then -1 else 1

/-- Reads the integer in front of an argument in words.  The product with the sign wraps around
where it overflows. -/
def integerWord? (arg : String) : Option Int64 :=
  let signed := splitSign (Text.trimStart arg.toList)
  let digits := Text.digitRun signed.2
  if digits.isEmpty then none
  else (collect? digits).map fun word => signWord signed.1 * word

end FormCheck.Argument
