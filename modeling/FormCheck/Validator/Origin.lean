/-!
# Origins of validators

A validator is either built in or custom, that is, supplied from outside.
-/

namespace FormCheck

inductive Origin where
  | builtin
  | custom
  deriving DecidableEq, Inhabited

namespace Origin

def name : Origin → String
  | .builtin => "builtin"
  | .custom => "custom"

end Origin

end FormCheck
