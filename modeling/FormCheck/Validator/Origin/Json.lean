import FormCheck.Json.Syntax
import FormCheck.Validator.Origin

/-!
# Origins in JSON

An origin is written as its name.  An object whose only member has the name of
an origin and the value null denotes that origin too.
-/

namespace FormCheck.Origin

def toJson (origin : Origin) : Json :=
  .text origin.name

def ofName? (name : String) : Option Origin :=
  [Origin.builtin, Origin.custom].find? fun origin => origin.name = name

def ofJson? : Json → Option Origin
  | .string (some name) => ofName? name
  | .object [(some name, .null)] => ofName? name
  | _ => none

end FormCheck.Origin
