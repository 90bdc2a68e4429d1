import FormCheck.Number.Basic

/-!
# JSON documents

A document is a tree of the six kinds of JSON values.  Objects keep the order
of their members and may repeat a name.

A string of a document is a text unless one of its escapes is half of a
surrogate pair without the other half.  Such a string is well written but
denotes no text, and is kept as `none`.  A literal beyond the finite range is
kept as an infinity.
-/

namespace FormCheck

inductive Json where
  | null
  | bool (b : Bool)
  | number (n : Number)
  | string (s : Option String)
  | array (items : List Json)
  | object (members : List (Option String × Json))

namespace Json

instance : Inhabited Json := ⟨.null⟩

def text (s : String) : Json := .string (some s)

def texts (items : List String) : Json := .array (items.map text)

def record (members : List (String × Json)) : Json :=
  .object (members.map fun member => (some member.1, member.2))

def text? : Json → Option String
  | .string s => s
  | _ => none

def bool? : Json → Option Bool
  | .bool b => some b
  | _ => none

def items? : Json → Option (List Json)
  | .array items => some items
  | _ => none

def texts? (document : Json) : Option (List String) :=
  document.items?.bind fun items => items.mapM text?

end Json

end FormCheck
