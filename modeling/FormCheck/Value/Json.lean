import FormCheck.Json.Syntax
import FormCheck.Value

/-!
# Values in JSON

A value is written as the JSON value of its kind.  The kinds of JSON that are
no values (null, arrays and objects) are refused, and so are numbers beyond the
finite range.
-/

namespace FormCheck.Value

def toJson : Value → Json
  | .bool b => .bool b
  | .number n => .number n
  | .text s => .text s

def ofJson? : Json → Option Value
  | .bool b => some (.bool b)
  | .number (.finite negative magnitude) => some (.number (.finite negative magnitude))
  | .string (some s) => some (.text s)
  | _ => none

end FormCheck.Value
