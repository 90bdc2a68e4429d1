import FormCheck.Check.Schedule

/-!
# Checkers

A checker bundles the identifier of a form, the rules of its fields and a
registry of validators, and validates submissions against them.  Checkers are
never changed: registering a validator gives a new checker, whose rules are
written and parsed anew.
-/

namespace FormCheck

/-- What a checker is built from: the form, a rule text for each field, and the validators that
take precedence over the built-in ones. -/
structure Setup where
  form : Option String
  rules : RuleTexts
  validators : Registry
  deriving Inhabited

@[ext] structure Checker where
  form : Option String
  rules : RuleMap
  registry : Registry
  deriving Inhabited

/-- What came of a validation: a report or a rule without a validator, and the checks that were
started, in order. -/
structure Outcome where
  result : Except UnknownRule Report
  started : List Check

namespace Plan

def carryOut (plan : Plan) : Outcome :=
  let run := Run.ofPlan plan
  { result := .ok run.finish, started := run.started run.schedule }

/-- What comes of a plan.  A plan without fields is not carried out, it passes at once. -/
def outcome (plan : Plan) : Outcome :=
  if plan.isEmpty then { result := .ok Report.passed, started := [] } else plan.carryOut

end Plan

namespace Checker

def plain : Checker where
  form := none
  rules := FieldMap.empty
  registry := Registry.builtins

def ofSetup (setup : Setup) : Checker where
  form := setup.form
  rules := RuleMap.parse setup.rules
  registry := setup.validators

/-- The checker with one more validator.  Its rules are parsed from their written form. -/
def extend (checker : Checker) (name : String) (validator : Validator) : Checker where
  form := checker.form
  rules := RuleMap.parse (RuleMap.texts checker.rules)
  registry := checker.registry.register name validator

/-- Validates a submission.  Nothing is started unless every rule has a validator. -/
def validate (checker : Checker) (submission : Submission) : Outcome :=
  match Plan.make? checker.form checker.rules checker.registry submission with
  | .error unknown => { result := .error unknown, started := [] }
  | .ok plan => plan.outcome

/-- The rules without a validator, field by field, whether submitted or not. -/
def unresolvedRules (checker : Checker) : List (String × String) :=
  checker.rules.entries.flatMap fun entry =>
    (entry.2.filter fun clause => !checker.registry.contains clause.name).map fun clause =>
      (entry.1, clause.name)

end Checker

end FormCheck
