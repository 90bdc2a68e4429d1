/-!
# Reports

A report lists the fields that failed, in the order of submission, each with
the names of its failed rules in the order of declaration.  The submission is
valid exactly when no field failed.
-/

namespace FormCheck

structure FieldErrors where
  key : String
  failed : List String
  deriving DecidableEq, Inhabited

structure Report where
  valid : Bool
  errors : List FieldErrors
  deriving DecidableEq, Inhabited

namespace Report

def passed : Report := { valid := true, errors := [] }

/-- The report on a list of fields; a field without failed rules is left out. -/
def ofFields (fields : List FieldErrors) : Report :=
  let errors := fields.filter fun field => !field.failed.isEmpty
  { valid := errors.isEmpty, errors }

def errorsFor? (report : Report) (key : String) : Option (List String) :=
  (report.errors.find? fun field => field.key = key).map FieldErrors.failed

end Report

end FormCheck
