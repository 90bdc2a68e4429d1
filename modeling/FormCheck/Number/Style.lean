import FormCheck.Number.Shortest

/-!
# Layout of number texts

The shortest digits of a number are written positionally when the decimal
exponent of the leading digit lies within the bounds of a style, and with an
exponent mark otherwise.  The two styles of this library differ in these
bounds, in the point after whole numbers, in the sign of zero and in the choice
between equally near digits.
-/

namespace FormCheck

structure NumberStyle where
  /-- The least exponent of the leading digit that is written positionally. -/
  least : Int
  /-- The greatest exponent of the leading digit that is written positionally. -/
  greatest : Int
  /-- Whether a whole number that is written positionally ends in a point and a zero. -/
  wholePoint : Bool
  /-- Whether the negative zero keeps its sign. -/
  signedZero : Bool
  /-- Which of two equally near shortest digits is written. -/
  tie : Number.Tie

namespace NumberStyle

/-- Script style: whole numbers without a point up to 21 digits, zero without a sign. -/
def script : NumberStyle := ⟨-6, 20, false, false, .upward⟩

/-- Document style: every positional number has a point, zero keeps its sign. -/
def document : NumberStyle := ⟨-5, 15, true, true, .toEven⟩

/-- Digits with an exponent mark: a point after the first digit when there are more, and the
sign of the exponent always written. -/
def exponential (digits : List Char) (exponent : Int) : List Char :=
  let fraction := digits.drop 1
  digits.take 1 ++ (if fraction.isEmpty then [] else '.' :: fraction) ++
    ['e', if exponent < 0 then '-' else '+'] ++ Text.digitsOfNumber exponent.natAbs

/-- Digits written out, where `exponent` is the power of ten of the leading digit. -/
def positional (style : NumberStyle) (digits : List Char) (exponent : Int) : List Char :=
  if exponent < 0 then
    ['0', '.'] ++ List.replicate (-exponent - 1).toNat '0' ++ digits
  else
    let wholeLength := (exponent + 1).toNat
    if digits.length ≤ wholeLength then
      digits ++ List.replicate (wholeLength - digits.length) '0' ++
        (if style.wholePoint then ['.', '0'] else [])
    else
      digits.take wholeLength ++ ['.'] ++ digits.drop wholeLength

def decimalText (style : NumberStyle) (decimal : Decimal) : List Char :=
  let digits := Text.digitsOfNumber decimal.digits
  let exponent := decimal.exponent + digits.length - 1
  if style.least ≤ exponent ∧ exponent ≤ style.greatest then
    style.positional digits exponent
  else
    exponential digits exponent

def finiteText (style : NumberStyle) (negative : Bool) (rank : Nat) : List Char :=
  if rank = 0 then
    (if style.signedZero && negative then ['-'] else []) ++
      (if style.wholePoint then ['0', '.', '0'] else ['0'])
  else
    (if negative then ['-'] else []) ++
      style.decimalText (Number.shortest style.tie negative rank)

end NumberStyle

end FormCheck
