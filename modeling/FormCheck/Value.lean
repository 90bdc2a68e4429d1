import FormCheck.Number.Style

/-!
# Submitted values

A submitted value is a truth value, a number or a text.  Every value has a text
form, in which numbers are written in script style; lengths are counted on this
text, in characters.
-/

namespace FormCheck

/-- The text of a number as it is shown to people and measured by length rules. -/
def Number.text : Number → String
  | .nan => "NaN"
  | .infinite false => "Infinity"
  | .infinite true => "-Infinity"
  | .finite negative magnitude =>
    String.ofList (NumberStyle.script.finiteText negative magnitude)

inductive Value where
  | bool (b : Bool)
  | number (n : Number)
  | text (s : String)
  deriving DecidableEq, Inhabited

namespace Value

def display : Value → String
  | .bool true => "true"
  | .bool false => "false"
  | .number n => n.text
  | .text s => s

def charCount (value : Value) : Nat :=
  value.display.toList.length

def text? : Value → Option String
  | .text s => some s
  | _ => none

def bool? : Value → Option Bool
  | .bool b => some b
  | _ => none

def number? : Value → Option Number
  | .number n => some n
  | _ => none

/-- Equality of values as validators see it: values of different kinds differ, and numbers are
compared by their place, so that `nan` differs from itself and both zeros are equal. -/
def equal : Value → Value → Bool
  | .bool a, .bool b => a == b
  | .number a, .number b => a.equal b
  | .text a, .text b => a == b
  | _, _ => false

end Value

end FormCheck
