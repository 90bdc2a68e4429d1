import FormCheck.Rule.Clause

/-!
# Rule lists

The rules of one field are a list of clauses, written with a bar between them
as in `length:3:10|required`.  Reading never fails: an empty clause is a clause
with an empty name, which no built-in validator answers to.
-/

namespace FormCheck

/-- The clauses of one field, in declaration order. -/
abbrev RuleList := List Clause

namespace RuleList

def separator : Char := '|'

def parse (text : String) : RuleList :=
  (text.toList.splitOn separator).map fun clause => Clause.parse (String.ofList clause)

def text (rules : RuleList) : String :=
  String.ofList ([separator].intercalate (rules.map fun clause => clause.text.toList))

end RuleList

end FormCheck
