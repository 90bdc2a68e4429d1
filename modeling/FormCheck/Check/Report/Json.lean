import FormCheck.Check.Report
import FormCheck.Json.Record

/-!
# Reports in JSON

A report is a record of its flag and its errors, an error a record of the field
key and the names of the failed rules.  All fields have to be there.
-/

namespace FormCheck

namespace FieldErrors

def toJson (errors : FieldErrors) : Json :=
  .record [("key", .text errors.key), ("message", .texts errors.failed)]

def ofParts? (key failed : Json) : Option FieldErrors := do
  let key ← key.text?
  let failed ← failed.texts?
  return { key, failed }

def ofJson? : Json → Option FieldErrors
  | .object members => do
    guard (Json.isNamed members)
    let key ← Json.required? members "key"
    let failed ← Json.required? members "message"
    ofParts? key failed
  | .array [key, failed] => ofParts? key failed
  | _ => none

end FieldErrors

namespace Report

def toJson (report : Report) : Json :=
  .record [("valid", .bool report.valid), ("errors", .array (report.errors.map FieldErrors.toJson))]

def ofParts? (valid errors : Json) : Option Report := do
  let valid ← valid.bool?
  let items ← errors.items?
  let errors ← items.mapM FieldErrors.ofJson?
  return { valid, errors }

def ofJson? : Json → Option Report
  | .object members => do
    guard (Json.isNamed members)
    let valid ← Json.required? members "valid"
    let errors ← Json.required? members "errors"
    ofParts? valid errors
  | .array [valid, errors] => ofParts? valid errors
  | _ => none

end Report

end FormCheck
