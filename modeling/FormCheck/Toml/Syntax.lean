import FormCheck.Toml.DateTime

/-!
# TOML statements

A configuration consists of texts and tables of texts.  Of the values of TOML
only strings, inline tables of strings and date-times are kept; a date-time can
take the place of a table.  A document is a list of statements: headers, which
open a table, and assignments.  Keys are paths, because a key can be made of
several parts with points between them.
-/

namespace FormCheck.Toml

inductive Value where
  | text (s : String)
  | table (members : List (String × String))
  | dateTime (value : DateTime)
  deriving DecidableEq

inductive Statement where
  | header (path : List String)
  | assignment (path : List String) (value : Value)
  deriving DecidableEq

end FormCheck.Toml
