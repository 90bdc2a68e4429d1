import FormCheck.FieldMap
import FormCheck.Rule.RuleList

/-!
# Rules by field

A form gives a rule text for each of its fields.  Parsing and writing go field
by field and keep the order of the fields.
-/

namespace FormCheck

abbrev RuleTexts := FieldMap String

abbrev RuleMap := FieldMap RuleList

namespace RuleMap

def parse (texts : RuleTexts) : RuleMap :=
  texts.map RuleList.parse

def texts (rules : RuleMap) : RuleTexts :=
  rules.map RuleList.text

end RuleMap

end FormCheck
