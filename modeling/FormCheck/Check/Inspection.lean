import FormCheck.Check.Checker
import FormCheck.Text.Quoted

/-!
# Inspection texts

Registries, setups and checkers can be shown on one line for inspection.
Validators are shown by their names, in ascending order, and fields in the
order of the form.
-/

namespace FormCheck

def inspectRecord (name : String) (fields : List (String × String)) : String :=
  name ++ " \x7b " ++ ", ".intercalate (fields.map fun field => field.1 ++ ": " ++ field.2) ++
    " \x7d"

def inspectTexts (items : List String) : String :=
  Text.bracketed (items.map Text.quoted)

namespace Clause

def inspect (clause : Clause) : String :=
  inspectRecord "RuleDescriptor"
    [("name", Text.quoted clause.name), ("args", inspectTexts clause.args)]

end Clause

namespace RuleList

def inspect (rules : RuleList) : String :=
  Text.bracketed (rules.map Clause.inspect)

end RuleList

namespace Registry

def inspect (registry : Registry) : String :=
  inspectRecord "ValidatorRegistry" [("overrides", inspectTexts registry.overrideNames)]

end Registry

namespace Setup

def inspect (setup : Setup) : String :=
  inspectRecord "DatavalConfig"
    [("form", Text.optionallyQuoted setup.form),
      ("rules", Text.braced (setup.rules.map Text.quoted).entries),
      ("validators", inspectTexts setup.validators.overrideNames)]

end Setup

namespace Checker

def inspect (checker : Checker) : String :=
  inspectRecord "Dataval"
    [("form", Text.optionallyQuoted checker.form),
      ("rules", Text.braced (checker.rules.map RuleList.inspect).entries),
      ("registry", checker.registry.inspect)]

end Checker

end FormCheck
