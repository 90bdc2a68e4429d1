import FormCheck.Json.Record
import FormCheck.Rule.Clause

/-!
# Clauses in JSON

A clause is a record of its name and its arguments; the arguments may be left
out when there are none.
-/

namespace FormCheck.Clause

def toJson (clause : Clause) : Json :=
  .record [("name", .text clause.name), ("args", .texts clause.args)]

/-- The arguments of a document, where an absent field means no arguments. -/
def args? (members : List (Option String × Json)) : Option (List String) :=
  match Json.field? members "args" with
  | some .absent => some []
  | some (.present value) => value.texts?
  | none => none

def ofJson? : Json → Option Clause
  | .object members => do
    guard (Json.isNamed members)
    let name ← (Json.required? members "name").bind Json.text?
    let args ← args? members
    return { name, args }
  | .array [name] => do
    let name ← name.text?
    return { name, args := [] }
  | .array [name, args] => do
    let name ← name.text?
    let args ← args.texts?
    return { name, args }
  | _ => none

end FormCheck.Clause
