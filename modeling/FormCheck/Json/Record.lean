import FormCheck.Json.Syntax

/-!
# Records in JSON

A record is written as an object with one member for each field.  It is read
from an object, whose other members are ignored, or from an array that lists
the fields in order.  A field that occurs twice makes the object unreadable,
and so does a member whose name denotes no text.
-/

namespace FormCheck.Json

inductive Field where
  | absent
  | present (value : Json)

/-- A field of an object; there is no answer when the field is repeated. -/
def field? (members : List (Option String × Json)) (name : String) : Option Field :=
  match members.filter fun member => member.1 = some name with
  | [] => some .absent
  | [member] => some (.present member.2)
  | _ => none

def required? (members : List (Option String × Json)) (name : String) : Option Json :=
  match field? members name with
  | some (.present value) => some value
  | _ => none

def isNamed (members : List (Option String × Json)) : Bool :=
  members.all fun member => member.1.isSome

end FormCheck.Json
