import FormCheck.Rule.RuleMap
import FormCheck.Validator.Registry

/-!
# Plans

Before any validator is asked, the rules of all submitted fields are resolved.
A plan lists the submitted fields that have rules, in the order of submission,
each with one check for every rule in the order of declaration.  A rule without
a validator makes planning fail; the first such rule is named.
-/

namespace FormCheck

/-- A rule of a submitted field that has no validator. -/
structure UnknownRule where
  key : String
  rule : String
  deriving DecidableEq, Inhabited

namespace UnknownRule

def message (unknown : UnknownRule) : String :=
  "Validator " ++ unknown.rule ++ " is not registered but a rule on field " ++ unknown.key ++
    " requires it."

end UnknownRule

structure Check where
  validator : Validator
  context : Context

def Check.passes (check : Check) : Bool :=
  check.validator.answer check.context

structure FieldPlan where
  key : String
  checks : List Check

abbrev Plan := List FieldPlan

namespace Plan

/-- The rules of a field; a field that is not mentioned has none. -/
def rulesOf (rules : RuleMap) (key : String) : RuleList :=
  (rules.get? key).getD []

def check? (form : Option String) (registry : Registry) (submission : Submission) (key : String)
    (value : Value) (clause : Clause) : Except UnknownRule Check :=
  match registry.resolve? clause.name with
  | some validator =>
    let context : Context :=
      { key, value, submission, form, rule := clause.name, args := clause.args }
    .ok { validator, context }
  | none => .error { key, rule := clause.name }

def field? (form : Option String) (rules : RuleMap) (registry : Registry)
    (submission : Submission) (entry : String × Value) : Except UnknownRule FieldPlan := do
  let checks ← (rulesOf rules entry.1).mapM (check? form registry submission entry.1 entry.2)
  return { key := entry.1, checks }

def make? (form : Option String) (rules : RuleMap) (registry : Registry)
    (submission : Submission) : Except UnknownRule Plan :=
  (submission.entries.filter fun entry => !(rulesOf rules entry.1).isEmpty).mapM
    (field? form rules registry submission)

end Plan

end FormCheck
