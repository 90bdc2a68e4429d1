import FormCheck.Proofs.ValidationOutcome
import Mathlib.Data.List.Nodup

/-!
# Failed rules of a field

A report lists a submitted field once, with its failed rules, or not at all when
none of its rules failed.  So what is reported for a field can be looked up by its
key, and two validations can be compared field by field.
-/

namespace FormCheck

/-! ## Looking up a report -/

namespace Report

variable {report other : Report} {key : String}

theorem errorsFor?_eq_some_iff
    (hnodup : (report.errors.map FieldErrors.key).Nodup) {failed : List String} :
    report.errorsFor? key = some failed ↔ { key, failed } ∈ report.errors := by
  unfold errorsFor?
  rw [Option.map_eq_some_iff]
  constructor
  · rintro ⟨field, hfind, rfl⟩
    obtain rfl : field.key = key := by simpa using List.find?_some hfind
    exact List.mem_of_find?_eq_some hfind
  · intro hmem
    obtain ⟨field, hfind⟩ : ∃ field,
        report.errors.find? (fun field => field.key = key) = some field := by
      rw [← Option.isSome_iff_exists, List.find?_isSome]
      exact ⟨_, hmem, by simp⟩
    have hkey : field.key = key := by simpa using List.find?_some hfind
    have hfield := List.inj_on_of_nodup_map hnodup (List.mem_of_find?_eq_some hfind) hmem hkey
    exact ⟨field, hfind, by rw [hfield]⟩

/-- Reports with the same entries say the same of every field, in whatever order. -/
theorem errorsFor?_eq_of_perm
    (hnodup : (report.errors.map FieldErrors.key).Nodup)
    (hperm : other.errors.Perm report.errors) :
    other.errorsFor? key = report.errorsFor? key := by
  have hother : (other.errors.map FieldErrors.key).Nodup :=
    (hperm.map FieldErrors.key).nodup_iff.mpr hnodup
  apply Option.ext
  intro failed
  rw [errorsFor?_eq_some_iff hother, errorsFor?_eq_some_iff hnodup, hperm.mem_iff]

end Report

namespace Checker

variable {checker other : Checker} {submission batch : Submission} {entry : String × Value}

/-! ## What is reported for a submitted field -/

def errors? (checker : Checker) (submission : Submission) (entry : String × Value) :
    Option FieldErrors :=
  if checker.failedRules submission entry = [] then none
  else some { key := entry.1, failed := checker.failedRules submission entry }

theorem expectedErrors_eq_filterMap (checker : Checker) (submission : Submission) :
    checker.expectedErrors submission = submission.entries.filterMap (checker.errors? submission) :=
  rfl

theorem errors?_eq_some_iff {errors : FieldErrors} :
    checker.errors? submission entry = some errors ↔
      errors = { key := entry.1, failed := checker.failedRules submission entry } ∧
        errors.failed ≠ [] := by
  unfold errors?
  split
  · next hnone => simp_all
  · next hsome =>
    rw [Option.some.injEq, eq_comm]
    constructor
    · rintro rfl
      exact ⟨rfl, hsome⟩
    · exact And.left

theorem keys_expectedErrors_sublist (checker : Checker) (submission : Submission) :
    ((checker.expectedErrors submission).map FieldErrors.key).Sublist submission.keys := by
  have hkeys : (checker.expectedErrors submission).map FieldErrors.key =
      (submission.entries.filter fun entry => checker.failedRules submission entry ≠ []).map
        Prod.fst := by
    rw [expectedErrors_eq_filterMap, List.map_filterMap, ← List.filterMap_eq_map,
      ← List.filterMap_eq_filter, List.filterMap_filterMap]
    apply List.filterMap_congr
    intro entry _
    by_cases hfailed : checker.failedRules submission entry = [] <;>
      simp [errors?, Option.guard, hfailed]
  rw [hkeys]
  exact List.filter_sublist.map Prod.fst

theorem nodup_keys_expectedErrors (checker : Checker) (submission : Submission) :
    ((checker.expectedErrors submission).map FieldErrors.key).Nodup :=
  (keys_expectedErrors_sublist checker submission).nodup submission.keys_nodup

/-- What can be looked up for a submitted field are its failed rules, if there are any. -/
theorem errorsFor?_expectedReport (hentry : entry ∈ submission.entries) :
    (checker.expectedReport submission).errorsFor? entry.1 =
      (checker.errors? submission entry).map FieldErrors.failed := by
  apply Option.ext
  intro failed
  have hnodup := nodup_keys_expectedErrors checker submission
  rw [Report.errorsFor?_eq_some_iff hnodup, Option.map_eq_some_iff]
  change _ ∈ checker.expectedErrors submission ↔ _
  rw [expectedErrors_eq_filterMap, List.mem_filterMap]
  constructor
  · rintro ⟨found, hfound, herrors⟩
    have hkey : found.1 = entry.1 :=
      (congrArg FieldErrors.key (errors?_eq_some_iff.mp herrors).1).symm
    have hsame := List.inj_on_of_nodup_map submission.keys_nodup hfound hentry hkey
    exact ⟨_, hsame ▸ herrors, rfl⟩
  · rintro ⟨errors, herrors, rfl⟩
    refine ⟨entry, hentry, ?_⟩
    rw [herrors, (errors?_eq_some_iff.mp herrors).1]

theorem getD_errorsFor?_expectedReport (hentry : entry ∈ submission.entries) :
    ((checker.expectedReport submission).errorsFor? entry.1).getD [] =
      checker.failedRules submission entry := by
  rw [errorsFor?_expectedReport hentry]
  by_cases hfailed : checker.failedRules submission entry = [] <;> simp [errors?, hfailed]

theorem eq_expectedReport_of_ok
    {report : Report} (hreport : (checker.validate submission).result = .ok report) :
    report = checker.expectedReport submission := by
  obtain ⟨plan, hplan⟩ := Plan.exists_make?_ok_iff.mpr (exists_ok_iff.mp ⟨report, hreport⟩)
  rw [result_eq_expectedReport hplan] at hreport
  exact (Except.ok.inj hreport).symm

/-! ## Comparing the failed rules of a field -/

theorem failedRules_eq_map_filter
    (checker : Checker) (submission : Submission) (entry : String × Value) :
    checker.failedRules submission entry =
      ((Plan.rulesOf checker.rules entry.1).filter fun clause =>
        checker.refuses (Plan.contextOf checker.form submission entry clause)).map Clause.name := by
  unfold failedRules Plan.contextsOf
  rw [List.filter_map, List.map_map]
  rfl

/-- Two checkers, asked in two batches, find the same rules of a field to fail among those that
satisfy a condition, if they have the same rules and refuse the same of these. -/
theorem filter_failedRules_congr
    (condition : String → Bool)
    (hrules : Plan.rulesOf other.rules entry.1 = Plan.rulesOf checker.rules entry.1)
    (hrefuses : ∀ clause ∈ Plan.rulesOf checker.rules entry.1, condition clause.name →
      other.refuses (Plan.contextOf other.form batch entry clause) =
        checker.refuses (Plan.contextOf checker.form submission entry clause)) :
    (other.failedRules batch entry).filter condition =
      (checker.failedRules submission entry).filter condition := by
  rw [failedRules_eq_map_filter, failedRules_eq_map_filter, hrules, List.filter_map,
    List.filter_map, List.filter_filter, List.filter_filter]
  congr 1
  apply List.filter_congr
  intro clause hclause
  cases hcondition : condition clause.name with
  | false => simp [hcondition]
  | true => simp [hcondition, hrefuses clause hclause hcondition]

theorem failedRules_congr
    (hrules : Plan.rulesOf other.rules entry.1 = Plan.rulesOf checker.rules entry.1)
    (hrefuses : ∀ clause ∈ Plan.rulesOf checker.rules entry.1,
      other.refuses (Plan.contextOf other.form batch entry clause) =
        checker.refuses (Plan.contextOf checker.form submission entry clause)) :
    other.failedRules batch entry = checker.failedRules submission entry := by
  have hall := filter_failedRules_congr (fun _ => true) hrules
    fun clause hclause _ => hrefuses clause hclause
  simpa using hall

/-- The validator of a rule that answers the same in two batches refuses the same. -/
theorem refuses_congr_batch
    {clause : Clause}
    (hanswer : ∀ validator, checker.registry.resolve? clause.name = some validator →
      validator.answer (Plan.contextOf checker.form batch entry clause) =
        validator.answer (Plan.contextOf checker.form submission entry clause)) :
    checker.refuses (Plan.contextOf checker.form batch entry clause) =
      checker.refuses (Plan.contextOf checker.form submission entry clause) := by
  have hmap : ∀ values : Submission,
      checker.refuses (Plan.contextOf checker.form values entry clause) =
        ((checker.registry.resolve? clause.name).map fun validator =>
          !validator.answer (Plan.contextOf checker.form values entry clause)).getD false := by
    intro values
    rw [refuses_eq_map, Option.map_map]
    rfl
  rw [hmap, hmap]
  cases hresolve : checker.registry.resolve? clause.name with
  | none => rfl
  | some validator => exact congrArg (fun answer => !answer) (hanswer validator hresolve)

end Checker

end FormCheck
