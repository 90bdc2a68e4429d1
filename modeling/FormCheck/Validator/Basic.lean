import FormCheck.Validator.Context
import FormCheck.Validator.Origin

/-!
# Validators

A validator answers whether a rule holds in a context.  It may suspend a number
of times before it answers; what it answers depends on the context alone.
-/

namespace FormCheck

/-- An answer for every context, with the number of suspensions before it is given. -/
structure Validator where
  origin : Origin
  answer : Context → Bool
  suspensions : Context → Nat

end FormCheck
