import FormCheck.Validator.Registry

/-!
# Recipes for custom validators

A recipe describes a custom validator by data.  Some recipes look at the value
alone, others at the arguments, at the other submitted fields or at the form.
-/

namespace FormCheck

inductive Recipe where
  /-- The same answer always. -/
  | const (result : Bool)
  /-- The text form of the value is not in a list. -/
  | notIn (excluded : List String)
  /-- The value is an even number. -/
  | even
  /-- The field named by the first argument is not empty, or else the value is not. -/
  | requiredIfNot
  /-- The field named by the first argument has an equal value. -/
  | sameAs
  /-- Every argument names a submitted field. -/
  | hasAll
  /-- The form is the first argument; without an argument, there is no form. -/
  | formIs
  /-- The rule has a number of arguments. -/
  | argCount (n : Nat)
  /-- The submission has a number of fields. -/
  | valueCount (n : Nat)
  /-- The answer of a built-in validator; there is a failure if the name has none. -/
  | builtin (name : String)
  deriving DecidableEq

namespace Recipe

def namedSibling? (context : Context) : Option Value :=
  (context.arg? 0).bind context.sibling?

def answer (recipe : Recipe) (context : Context) : Bool :=
  match recipe with
  | .const result => result
  | .notIn excluded => !excluded.contains context.value.display
  | .even => context.value.number?.any Number.isEven
  | .requiredIfNot =>
    (namedSibling? context).any (fun value => 0 < value.charCount) || 0 < context.value.charCount
  | .sameAs => (namedSibling? context).any fun value => value.equal context.value
  | .hasAll => context.args.all context.hasSibling
  | .formIs => context.form = context.arg? 0
  | .argCount n => context.args.length == n
  | .valueCount n => context.submission.size == n
  | .builtin name =>
    match Builtin.ofName? name with
    | some found => found.holds context.value context.args
    | none => false

/-- The custom validator of a recipe, which suspends a given number of times. -/
def validator (recipe : Recipe) (suspensions : Nat) : Validator where
  origin := .custom
  answer := recipe.answer
  suspensions _ := suspensions

end Recipe

end FormCheck
