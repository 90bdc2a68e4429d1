import FormCheck.Argument
import FormCheck.Value.Date
import FormCheck.Validator.Basic

/-!
# Built-in validators

Fourteen validators are always available.  They look at the value of the field
and at the arguments of the rule and at nothing else.  An argument that is
missing or cannot be read makes a rule fail, except for the greatest length,
which is then unbounded.
-/

namespace FormCheck

inductive Builtin where
  | required
  | length
  | isEmpty
  | isString
  | isBoolean
  | isNumber
  | isTrue
  | isFalse
  | max
  | min
  | between
  | isDate
  | isAfter
  | isBefore
  deriving DecidableEq

namespace Builtin

def all : List Builtin :=
  [.required, .length, .isEmpty, .isString, .isBoolean, .isNumber, .isTrue, .isFalse, .max, .min,
    .between, .isDate, .isAfter, .isBefore]

def name : Builtin → String
  | .required => "required"
  | .length => "length"
  | .isEmpty => "isEmpty"
  | .isString => "isString"
  | .isBoolean => "isBoolean"
  | .isNumber => "isNumber"
  | .isTrue => "isTrue"
  | .isFalse => "isFalse"
  | .max => "max"
  | .min => "min"
  | .between => "between"
  | .isDate => "isDate"
  | .isAfter => "isAfter"
  | .isBefore => "isBefore"

def ofName? (name : String) : Option Builtin :=
  all.find? fun builtin => builtin.name = name

def integerArg? (args : List String) (index : Nat) : Option Int :=
  args[index]?.bind Argument.integer?

def boundArg? (args : List String) (index : Nat) : Option Number :=
  args[index]?.bind Argument.bound?

/-- Numbers and non-empty texts count as given, truth values do not. -/
def isGiven : Value → Bool
  | .text s => !s.isEmpty
  | .number _ => true
  | .bool _ => false

def lengthWithin (value : Value) (args : List String) : Bool :=
  match integerArg? args 0 with
  | none => false
  | some least =>
    least ≤ value.charCount &&
      -- Without a second argument there is no greatest length.
      match integerArg? args 1 with
      | none => true
      | some greatest => value.charCount ≤ greatest

def isAtMost (value : Value) (args : List String) (index : Nat) : Bool :=
  match value.number?, boundArg? args index with
  | some n, some bound => n.le bound
  | _, _ => false

def isAtLeast (value : Value) (args : List String) (index : Nat) : Bool :=
  match value.number?, boundArg? args index with
  | some n, some bound => bound.le n
  | _, _ => false

/-- The milliseconds of the value and of the first argument are in a relation. -/
def comparesDates (relation : Int → Int → Bool) (value : Value) (args : List String) : Bool :=
  match value.epochMillis?, integerArg? args 0 with
  | some millis, some limit => relation millis limit
  | _, _ => false

def holds : Builtin → Value → List String → Bool
  | .required, value, _ => isGiven value
  | .length, value, args => lengthWithin value args
  | .isEmpty, value, _ => value.charCount == 0
  | .isString, value, _ => value.text?.isSome
  | .isBoolean, value, _ => value.bool?.isSome
  | .isNumber, value, _ => value.number?.isSome
  | .isTrue, value, _ => value.bool? == some true
  | .isFalse, value, _ => value.bool? == some false
  | .max, value, args => isAtMost value args 0
  | .min, value, args => isAtLeast value args 0
  | .between, value, args => isAtLeast value args 0 && isAtMost value args 1
  | .isDate, value, _ => value.epochMillis?.isSome
  | .isAfter, value, args => comparesDates (fun millis limit => limit < millis) value args
  | .isBefore, value, args => comparesDates (fun millis limit => millis < limit) value args

def validator (builtin : Builtin) : Validator where
  origin := .builtin
  answer context := builtin.holds context.value context.args
  suspensions _ := 0

end Builtin

end FormCheck
