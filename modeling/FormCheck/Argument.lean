import FormCheck.Number.Decimal
import FormCheck.Text.Blank

/-!
# Rule arguments

Arguments are texts.  Rules about lengths and dates read the integer at the
front of an argument and ignore what follows; rules about numbers read the
whole argument as a decimal literal or as the name of an infinity.
-/

namespace FormCheck.Argument

/-- The greatest integer that is read, the greatest one of 64 bits with a sign. -/
def integerLimit : Nat := 0x7fffffffffffffff

def splitSign : List Char → Bool × List Char
  | '-' :: rest => (true, rest)
  | '+' :: rest => (false, rest)
  | s => (false, s)

/-- The integer at the front of an argument: blanks, at most one sign, and a run of digits that
is not empty and whose value is at most the limit. -/
def integer? (arg : String) : Option Int :=
  let signed := splitSign (Text.trimStart arg.toList)
  let digits := Text.digitRun signed.2
  let n := Text.numberOfDigits digits
  if digits.isEmpty ∨ integerLimit < n then none else some (Number.signed signed.1 n)

def exponent? : List Char → Option Int
  | [] => some 0
  | mark :: rest =>
    if mark = 'e' ∨ mark = 'E' then
      let signed := splitSign rest
      if signed.2.isEmpty ∨ !signed.2.all Char.isDigit then none
      else some (Number.signed signed.1 (Text.numberOfDigits signed.2))
    else
      none

def splitFraction : List Char → List Char × List Char
  | '.' :: rest => (Text.digitRun rest, Text.afterDigits rest)
  | s => ([], s)

/-- The decimal of a literal without its sign: digits with an optional point before, among or
after them, and an optional exponent. -/
def decimal? (negative : Bool) (s : List Char) : Option Decimal :=
  let whole := Text.digitRun s
  let fraction := splitFraction (Text.afterDigits s)
  if whole.isEmpty ∧ fraction.1.isEmpty then none
  else (exponent? fraction.2).map (Decimal.ofParts negative whole fraction.1)

def isNamed (name : String) (s : List Char) : Bool :=
  s.map Char.toLower = name.toList

def number? (s : List Char) : Option Number :=
  let signed := splitSign s
  if isNamed "inf" signed.2 ∨ isNamed "infinity" signed.2 then some (.infinite signed.1)
  else if isNamed "nan" signed.2 then some .nan
  else (decimal? signed.1 signed.2).map Decimal.toNumber

/-- The bound that an argument gives to a number rule; `nan` is no bound. -/
def bound? (arg : String) : Option Number :=
  (number? (Text.trim arg.toList)).filter fun n => n != .nan

end FormCheck.Argument
