import FormCheck.FieldMap
import FormCheck.Value

/-!
# Submissions

A submission is the batch of values that is validated in one go: a value for
each submitted field, in the order of submission.
-/

namespace FormCheck

/-- The submitted values by field key, in order. -/
abbrev Submission := FieldMap Value

end FormCheck
