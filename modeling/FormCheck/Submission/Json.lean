import FormCheck.Submission
import FormCheck.Value.Json

/-!
# Submissions in JSON

A submission is written as an object.  In a document a name may be repeated:
the field then stands where the name occurs first and has the value that occurs
last.  Every value has to be readable, also one that a later one replaces.
-/

namespace FormCheck.Submission

def toJson (submission : Submission) : Json :=
  .record (submission.entries.map fun entry => (entry.1, entry.2.toJson))

def entry? (member : Option String × Json) : Option (String × Value) := do
  let key ← member.1
  let value ← Value.ofJson? member.2
  return (key, value)

def ofJson? : Json → Option Submission
  | .object members => (members.mapM entry?).map FieldMap.ofList
  | _ => none

end FormCheck.Submission
