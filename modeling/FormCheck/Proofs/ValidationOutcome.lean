import FormCheck.Proofs.PlanResolution
import FormCheck.Proofs.RunSettlement
import Mathlib.Data.List.Basic

/-!
# Outcomes of validations

A validation either fails before anything is asked or reports exactly the rules
whose validators answer that they do not hold.  The expected report is defined
from the answers alone, field by field and rule by rule, without plans, tasks
and schedules.
-/

namespace FormCheck

/-! ## Plans that are carried out -/

namespace Plan

theorem started_nil (places : List Place) : Run.started [] places = [] := by
  induction places with
  | nil => rfl
  | cons place rest ih =>
      have hpoll : Run.poll [] place = [] := List.modify_nil _ _
      simp [Run.started, Run.task?, hpoll, ih]

theorem carryOut_eq (plan : Plan) :
    plan.carryOut =
      { result := .ok plan.report,
        started := Run.started (Run.ofPlan plan) (Run.schedule (Run.ofPlan plan)) } := by
  rw [← Run.finish_ofPlan]
  rfl

/-- Passing a plan without fields at once is the same as carrying it out. -/
theorem outcome_eq_carryOut (plan : Plan) : plan.outcome = plan.carryOut := by
  cases plan with
  | nil =>
      rw [carryOut_eq]
      have hstarted := started_nil (Run.schedule (Run.ofPlan []))
      change _ = Outcome.mk _ (Run.started [] _)
      rw [hstarted]
      rfl
  | cons field rest => rfl

end Plan

namespace Checker

theorem validate_of_ok
    {checker : Checker} {submission : Submission} {plan : Plan}
    (hplan : Plan.make? checker.form checker.rules checker.registry submission =
      .ok plan) :
    checker.validate submission = plan.carryOut := by
  unfold validate
  rw [hplan]
  exact plan.outcome_eq_carryOut

theorem validate_of_error
    {checker : Checker} {submission : Submission} {unknown : UnknownRule}
    (hplan : Plan.make? checker.form checker.rules checker.registry submission =
      .error unknown) :
    checker.validate submission = { result := .error unknown, started := [] } := by
  unfold validate
  rw [hplan]

theorem result_of_ok
    {checker : Checker} {submission : Submission} {plan : Plan}
    (hplan : Plan.make? checker.form checker.rules checker.registry submission =
      .ok plan) :
    (checker.validate submission).result = .ok plan.report := by
  rw [validate_of_ok hplan, Plan.carryOut_eq]

/-! ## The expected report -/

/-- Whether the validator of a rule, a registered one before a built-in one,
answers that the rule does not hold in a context. -/
def refuses (checker : Checker) (context : Context) : Bool :=
  match checker.registry.resolve? context.rule with
  | some validator => !validator.answer context
  | none => false

theorem refuses_eq_map (checker : Checker) (context : Context) :
    checker.refuses context =
      (((checker.registry.resolve? context.rule).map Validator.answer).map
        fun answer => !answer context).getD false := by
  unfold refuses
  cases checker.registry.resolve? context.rule <;> rfl

/-- The rules of a submitted field that do not hold, in the order of declaration. -/
def failedRules
    (checker : Checker) (submission : Submission)
    (entry : String × Value) : List String :=
  ((Plan.contextsOf checker.form checker.rules submission entry).filter
    checker.refuses).map Context.rule

/-- The submitted fields with rules that do not hold, in the order of submission. -/
def expectedErrors (checker : Checker) (submission : Submission) : List FieldErrors :=
  submission.entries.filterMap fun entry =>
    if checker.failedRules submission entry = [] then none
    else some { key := entry.1, failed := checker.failedRules submission entry }

def expectedReport (checker : Checker) (submission : Submission) : Report where
  valid := (checker.expectedErrors submission).isEmpty
  errors := checker.expectedErrors submission

theorem failedRules_of_no_rules
    {checker : Checker} (submission : Submission) {entry : String × Value}
    (hrules : Plan.rulesOf checker.rules entry.1 = []) :
    checker.failedRules submission entry = [] := by
  unfold failedRules Plan.contextsOf
  rw [hrules]
  rfl

theorem passes_eq_not_refuses
    {checker : Checker} {check : Check}
    (hresolve : checker.registry.resolve? check.context.rule = some check.validator) :
    (!check.passes) = checker.refuses check.context := by
  unfold refuses Check.passes
  rw [hresolve]

theorem fieldErrors_of_resolved
    {checker : Checker} {field : FieldPlan}
    (hresolve : ∀ check ∈ field.checks,
      checker.registry.resolve? check.context.rule = some check.validator) :
    field.errors =
      { key := field.key,
        failed := ((field.checks.map Check.context).filter
          checker.refuses).map Context.rule } := by
  have hfilter :
      field.checks.filter (fun check => !check.passes) =
        field.checks.filter (fun check => checker.refuses check.context) := by
    apply List.filter_congr
    intro check hmem
    exact passes_eq_not_refuses (hresolve check hmem)
  unfold FieldPlan.errors
  rw [hfilter, List.filter_map, List.map_map]
  rfl

/-- Leaving out the fields without rules first makes no difference. -/
theorem filter_planned_eq_expectedErrors (checker : Checker) (submission : Submission) :
    (((submission.entries.filter
        fun entry => !(Plan.rulesOf checker.rules entry.1).isEmpty).map
          fun entry => FieldErrors.mk entry.1
            (checker.failedRules submission entry)).filter
              fun field => !field.failed.isEmpty) =
      checker.expectedErrors submission := by
  unfold expectedErrors
  rw [← List.filterMap_eq_filter, List.filterMap_map, List.filterMap_filter]
  apply List.filterMap_congr
  intro entry _
  by_cases hrules : Plan.rulesOf checker.rules entry.1 = []
  · have hfailed := failedRules_of_no_rules submission hrules
    simp [hrules, hfailed]
  · by_cases hfailed : checker.failedRules submission entry = []
    · simp [hrules, hfailed]
    · simp [hrules, hfailed]

theorem report_eq_expectedReport
    {checker : Checker} {submission : Submission} {plan : Plan}
    (hcovers : Plan.Covers checker.form checker.rules checker.registry
      submission plan) :
    plan.report = checker.expectedReport submission := by
  have hfields :
      plan.map FieldPlan.errors =
        (submission.entries.filter
          fun entry => !(Plan.rulesOf checker.rules entry.1).isEmpty).map
            fun entry => FieldErrors.mk entry.1
              (checker.failedRules submission entry) := by
    have hcontexts := congrArg
      (List.map fun asked : String × List Context =>
        FieldErrors.mk asked.1 ((asked.2.filter checker.refuses).map Context.rule))
      hcovers.contexts
    rw [List.map_map, List.map_map] at hcontexts
    refine Eq.trans ?_ hcontexts
    apply List.map_congr_left
    intro field hfield
    exact fieldErrors_of_resolved (hcovers.resolved field hfield)
  unfold Plan.report Report.ofFields
  rw [hfields, filter_planned_eq_expectedErrors]
  rfl

theorem result_eq_expectedReport
    {checker : Checker} {submission : Submission} {plan : Plan}
    (hplan : Plan.make? checker.form checker.rules checker.registry submission =
      .ok plan) :
    (checker.validate submission).result = .ok (checker.expectedReport submission) := by
  rw [result_of_ok hplan, report_eq_expectedReport (Plan.covers_of_make? hplan)]

/-! ## Validations that report -/

/-- When every rule of every submitted field has a validator, the validation
gives the expected report.  It makes no difference that a plan without fields is
not carried out. -/
theorem validate_eq_expectedReport
    (checker : Checker) (submission : Submission)
    (hknown : ∀ entry ∈ submission.entries,
      ∀ clause ∈ Plan.rulesOf checker.rules entry.1,
        checker.registry.Knows clause.name) :
    (checker.validate submission).result =
        .ok (checker.expectedReport submission) ∧
      ∀ plan : Plan, plan.outcome = plan.carryOut := by
  obtain ⟨plan, hplan⟩ := Plan.exists_make?_ok_iff.mpr hknown
  constructor
  · rw [validate_of_ok hplan, Plan.carryOut_eq,
      report_eq_expectedReport (Plan.covers_of_make? hplan)]
  · exact Plan.outcome_eq_carryOut

/-- A rule that never holds, declared twice beside a built-in one. -/
def flagging : Checker where
  form := some "auth"
  rules :=
    { entries :=
        [("name", [⟨"flag", []⟩, ⟨"required", []⟩, ⟨"flag", ["1"]⟩]), ("note", [])]
      keys_nodup := by decide }
  registry := Registry.builtins.register "flag"
    { origin := .custom, answer := fun _ => false, suspensions := fun _ => 2 }

def unnamed : Submission where
  entries := [("note", .bool true), ("name", .text "")]
  keys_nodup := by decide

theorem validate_flagging_unnamed :
    (∀ entry ∈ unnamed.entries, ∀ clause ∈ Plan.rulesOf flagging.rules entry.1,
      flagging.registry.Knows clause.name) ∧
    (flagging.validate unnamed).result =
      .ok { valid := false,
            errors := [{ key := "name", failed := ["flag", "required", "flag"] }] } := by
  have hknown : ∀ entry ∈ unnamed.entries,
      ∀ clause ∈ Plan.rulesOf flagging.rules entry.1,
        flagging.registry.Knows clause.name := by decide
  refine ⟨hknown, ?_⟩
  rw [(validate_eq_expectedReport flagging unnamed hknown).1]
  rfl

/-! ## Validations that fail -/

theorem validate_eq_error_iff
    {checker : Checker} {submission : Submission} {unknown : UnknownRule} :
    (checker.validate submission).result = .error unknown ↔
      Plan.make? checker.form checker.rules checker.registry submission =
        .error unknown := by
  cases hplan : Plan.make? checker.form checker.rules checker.registry submission with
  | error found => simp [validate_of_error hplan]
  | ok plan => simp [validate_of_ok hplan, Plan.carryOut_eq]

theorem result_eq_error_iff
    {checker : Checker} {submission : Submission} {unknown : UnknownRule} :
    (checker.validate submission).result = .error unknown ↔
      Plan.FirstUnknown checker.rules checker.registry submission unknown := by
  rw [validate_eq_error_iff, Plan.make?_eq_error_iff]

theorem exists_ok_iff {checker : Checker} {submission : Submission} :
    (∃ report, (checker.validate submission).result = .ok report) ↔
      ∀ entry ∈ submission.entries, ∀ clause ∈ Plan.rulesOf checker.rules entry.1,
        checker.registry.Knows clause.name := by
  have hplanned :
      (∃ report, (checker.validate submission).result = .ok report) ↔
        ∃ plan, Plan.make? checker.form checker.rules checker.registry
          submission = .ok plan := by
    cases hplan : Plan.make? checker.form checker.rules checker.registry submission with
    | error unknown => simp [validate_of_error hplan]
    | ok plan => simp [result_of_ok hplan]
  rw [hplanned, Plan.exists_make?_ok_iff]

/-- What fails depends on the rules of the submitted fields and on which of these
rules have a validator, and on nothing else. -/
theorem firstUnknown_of_agree
    {rules otherRules : RuleMap} {registry otherRegistry : Registry}
    {submission : Submission} {unknown : UnknownRule}
    (hrules : ∀ key ∈ submission.keys,
      Plan.rulesOf otherRules key = Plan.rulesOf rules key)
    (hknows : ∀ key ∈ submission.keys, ∀ clause ∈ Plan.rulesOf rules key,
      (otherRegistry.Knows clause.name ↔ registry.Knows clause.name))
    (hfirst : Plan.FirstUnknown rules registry submission unknown) :
    Plan.FirstUnknown otherRules otherRegistry submission unknown := by
  obtain ⟨before, entry, after, earlier, clause, later, hsplit, hclauses, hbefore,
    hearlier, hclause, hunknown⟩ := hfirst
  have hsubmitted : ∀ field ∈ submission.entries, field.1 ∈ submission.keys :=
    fun field hfield => List.mem_map_of_mem hfield
  have hentry : entry.1 ∈ submission.keys := hsubmitted entry (by simp [hsplit])
  refine ⟨before, entry, after, earlier, clause, later, hsplit, ?_, ?_, ?_, ?_, hunknown⟩
  · rw [hrules entry.1 hentry, hclauses]
  · intro field hfield rule hrule
    have hkey : field.1 ∈ submission.keys := hsubmitted field (by simp [hsplit, hfield])
    rw [hrules field.1 hkey] at hrule
    exact (hknows field.1 hkey rule hrule).mpr (hbefore field hfield rule hrule)
  · intro rule hrule
    exact (hknows entry.1 hentry rule (by simp [hclauses, hrule])).mpr (hearlier rule hrule)
  · rwa [hknows entry.1 hentry clause (by simp [hclauses])]

theorem firstUnknown_congr
    {rules otherRules : RuleMap} {registry otherRegistry : Registry}
    {submission : Submission} {unknown : UnknownRule}
    (hrules : ∀ key ∈ submission.keys,
      Plan.rulesOf otherRules key = Plan.rulesOf rules key)
    (hknows : ∀ name, otherRegistry.Knows name ↔ registry.Knows name)
    (hfirst : Plan.FirstUnknown rules registry submission unknown) :
    Plan.FirstUnknown otherRules otherRegistry submission unknown :=
  firstUnknown_of_agree hrules (fun _ _ clause _ => hknows clause.name) hfirst

/-- A validation fails exactly when a submitted field has a rule without a
validator, and the first such rule is named.  Nothing has been asked by then:
the outcome stays the same whatever the validators are, and whatever the rules
of other fields are. -/
theorem validate_fails_at_first_unknown
    (checker : Checker) (submission : Submission) :
    ((∃ unknown, (checker.validate submission).result = .error unknown) ↔
      ∃ entry ∈ submission.entries, ∃ clause ∈ Plan.rulesOf checker.rules entry.1,
        clause.name ∉ checker.registry.overrideNames ∧
          ∀ builtin : Builtin, builtin.name ≠ clause.name) ∧
    ∀ unknown,
      ((checker.validate submission).result = .error unknown ↔
        Plan.FirstUnknown checker.rules checker.registry submission unknown) ∧
      ((checker.validate submission).result = .error unknown →
        (checker.validate submission).started = [] ∧
        ∀ other : Checker,
          (∀ key ∈ submission.keys,
            Plan.rulesOf other.rules key = Plan.rulesOf checker.rules key) →
          (∀ name, other.registry.Knows name ↔ checker.registry.Knows name) →
          other.validate submission = checker.validate submission) := by
  have hnamed : ∀ {asked : Checker} {unknown : UnknownRule},
      (asked.validate submission).result = .error unknown ↔
        Plan.FirstUnknown asked.rules asked.registry submission unknown := by
    intro asked unknown
    rw [validate_eq_error_iff, Plan.make?_eq_error_iff]
  refine ⟨?_, fun unknown => ⟨hnamed, ?_⟩⟩
  · have hplanned :
        (∃ unknown, (checker.validate submission).result = .error unknown) ↔
          ¬ ∃ plan, Plan.make? checker.form checker.rules checker.registry
            submission = .ok plan := by
      simp only [validate_eq_error_iff]
      cases Plan.make? checker.form checker.rules checker.registry submission <;> simp
    rw [hplanned, Plan.exists_make?_ok_iff]
    simp only [Registry.Knows, not_forall, not_or, not_exists, exists_prop, ne_eq]
  · intro hfails
    have hplan := validate_eq_error_iff.mp hfails
    refine ⟨by rw [validate_of_error hplan], ?_⟩
    intro other hrules hknows
    have hother : (other.validate submission).result = .error unknown :=
      hnamed.mpr (firstUnknown_congr hrules hknows (hnamed.mp hfails))
    rw [validate_of_error hplan, validate_of_error (validate_eq_error_iff.mp hother)]

end Checker

end FormCheck
