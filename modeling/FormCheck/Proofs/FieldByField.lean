import FormCheck.Proofs.FailedRules

/-!
# One field at a time

A validator is told about the whole batch, so a field can fail because of the
others.  When no validator makes use of that, validating a batch is validating its
fields one after the other: the errors are those of the single fields in the order
of submission, and the first field that cannot be validated decides how the batch
fails.  The built-in validators look at nothing but the value and the arguments.
-/

namespace FormCheck

def Submission.alone (entry : String × Value) : Submission where
  entries := [entry]
  keys_nodup := List.nodup_cons.mpr ⟨List.not_mem_nil, List.nodup_nil⟩

/-! ## Answers that do not depend on other fields -/

/-- The answer is the same in every batch in which the field has its value. -/
def Validator.IgnoresOthers (validator : Validator) : Prop :=
  ∀ (context : Context) (batch : Submission),
    (context.key, context.value) ∈ context.submission.entries →
    (context.key, context.value) ∈ batch.entries →
    validator.answer { context with submission := batch } = validator.answer context

theorem Builtin.answer_congr
    (builtin : Builtin) {context other : Context}
    (hvalue : other.value = context.value) (hargs : other.args = context.args) :
    builtin.validator.answer other = builtin.validator.answer context := by
  change builtin.holds other.value other.args = builtin.holds context.value context.args
  rw [hvalue, hargs]

theorem Builtin.ignoresOthers_validator (builtin : Builtin) :
    builtin.validator.IgnoresOthers := by
  intro context batch _ _
  exact builtin.answer_congr rfl rfl

namespace Plan

variable {rules : RuleMap} {registry : Registry} {entry : String × Value}

theorem firstUnknown_alone_iff {unknown : UnknownRule} :
    FirstUnknown rules registry (.alone entry) unknown ↔
      ∃ earlier clause later,
        rulesOf rules entry.1 = earlier ++ clause :: later ∧
        (∀ rule ∈ earlier, registry.Knows rule.name) ∧
        ¬ registry.Knows clause.name ∧ unknown = ⟨entry.1, clause.name⟩ := by
  constructor
  · rintro ⟨before, field, after, earlier, clause, later, hsplit, hrules, -, hfirst⟩
    have hfield : field = entry := by
      have hmem : field ∈ (Submission.alone entry).entries := by simp [hsplit]
      exact List.mem_singleton.mp hmem
    exact ⟨earlier, clause, later, hfield ▸ hrules, hfield ▸ hfirst⟩
  · rintro ⟨earlier, clause, later, hrules, hfirst⟩
    exact ⟨[], entry, [], earlier, clause, later, rfl, hrules, by simp, hfirst⟩

theorem firstUnknown_iff_alone {submission : Submission} {unknown : UnknownRule} :
    FirstUnknown rules registry submission unknown ↔
      ∃ before entry after, submission.entries = before ++ entry :: after ∧
        (∀ field ∈ before, ∀ rule ∈ rulesOf rules field.1, registry.Knows rule.name) ∧
        FirstUnknown rules registry (.alone entry) unknown := by
  simp only [firstUnknown_alone_iff]
  constructor
  · rintro ⟨before, entry, after, earlier, clause, later, hsplit, hrules, hbefore, hfirst⟩
    exact ⟨before, entry, after, hsplit, hbefore, earlier, clause, later, hrules, hfirst⟩
  · rintro ⟨before, entry, after, hsplit, hbefore, earlier, clause, later, hrules, hfirst⟩
    exact ⟨before, entry, after, earlier, clause, later, hsplit, hrules, hbefore, hfirst⟩

end Plan

namespace Checker

variable {checker : Checker} {submission : Submission} {entry : String × Value}

/-- No validator of a rule of a submitted field depends on the other fields. -/
def IgnoresOthers (checker : Checker) (submission : Submission) : Prop :=
  ∀ key ∈ submission.keys, ∀ clause ∈ Plan.rulesOf checker.rules key, ∀ validator,
    checker.registry.resolve? clause.name = some validator → validator.IgnoresOthers

theorem ignoresOthers_of_no_overrides
    (hnone : checker.registry.overrides = []) (submission : Submission) :
    checker.IgnoresOthers submission := by
  intro key _ clause _ validator hresolve
  unfold Registry.resolve? at hresolve
  rw [hnone, List.lookup_nil] at hresolve
  obtain ⟨builtin, -, rfl⟩ := Option.map_eq_some_iff.mp hresolve
  exact builtin.ignoresOthers_validator

/-! ## Fields alone -/

def resultAlone (checker : Checker) (entry : String × Value) : Except UnknownRule Report :=
  (checker.validate (.alone entry)).result

theorem exists_resultAlone_ok_iff :
    (∃ report, checker.resultAlone entry = .ok report) ↔
      ∀ clause ∈ Plan.rulesOf checker.rules entry.1, checker.registry.Knows clause.name := by
  unfold resultAlone
  rw [exists_ok_iff]
  exact List.forall_mem_singleton

theorem resultAlone_of_known
    (hknown : ∀ clause ∈ Plan.rulesOf checker.rules entry.1,
      checker.registry.Knows clause.name) :
    checker.resultAlone entry = .ok (checker.expectedReport (.alone entry)) := by
  have hall : ∀ field ∈ (Submission.alone entry).entries,
      ∀ clause ∈ Plan.rulesOf checker.rules field.1, checker.registry.Knows clause.name :=
    List.forall_mem_singleton.mpr hknown
  obtain ⟨plan, hplan⟩ := Plan.exists_make?_ok_iff.mpr hall
  exact result_eq_expectedReport hplan

theorem failedRules_alone
    (hignores : checker.IgnoresOthers submission) (hentry : entry ∈ submission.entries) :
    checker.failedRules (.alone entry) entry = checker.failedRules submission entry := by
  apply failedRules_congr rfl
  intro clause hclause
  apply refuses_congr_batch
  intro validator hresolve
  exact hignores entry.1 (List.mem_map_of_mem hentry) clause hclause validator hresolve
    (Plan.contextOf checker.form submission entry clause) (.alone entry)
    hentry List.mem_cons_self

theorem expectedErrors_eq_flatMap (hignores : checker.IgnoresOthers submission) :
    checker.expectedErrors submission =
      submission.entries.flatMap fun entry => checker.expectedErrors (.alone entry) := by
  have halone : ∀ entry ∈ submission.entries,
      checker.expectedErrors (.alone entry) = (checker.errors? submission entry).toList := by
    intro entry hentry
    have hsame : checker.errors? (.alone entry) entry = checker.errors? submission entry := by
      simp only [errors?, failedRules_alone hignores hentry]
    change [entry].filterMap (checker.errors? (.alone entry)) = _
    rw [List.filterMap_eq_flatMap_toList, List.flatMap_cons, List.flatMap_nil, List.append_nil,
      hsame]
  rw [List.flatMap_congr halone, expectedErrors_eq_filterMap, List.filterMap_eq_flatMap_toList]

theorem valid_expectedReport_eq_all (hignores : checker.IgnoresOthers submission) :
    (checker.expectedReport submission).valid =
      submission.entries.all fun entry => (checker.expectedReport (.alone entry)).valid := by
  unfold expectedReport
  rw [expectedErrors_eq_flatMap hignores, Bool.eq_iff_iff, List.isEmpty_iff,
    List.flatMap_eq_nil_iff, List.all_eq_true]
  simp only [List.isEmpty_iff]

/-! ## Batches -/

/-- A batch can be validated when every field can, and its errors are then the errors
of its fields.  Otherwise it fails like the first field that cannot be validated. -/
structure DecidedFieldByField (checker : Checker) (submission : Submission) : Prop where
  succeeds_iff :
    (∃ report, (checker.validate submission).result = .ok report) ↔
      ∀ entry ∈ submission.entries, ∃ report, checker.resultAlone entry = .ok report
  report : ∀ report, (checker.validate submission).result = .ok report →
    ∃ reports : List Report,
      submission.entries.map checker.resultAlone = reports.map .ok ∧
      report.errors = reports.flatMap Report.errors ∧
      report.valid = reports.all Report.valid
  fails_iff : ∀ unknown, (checker.validate submission).result = .error unknown ↔
    ∃ before entry after, submission.entries = before ++ entry :: after ∧
      (∀ earlier ∈ before, ∃ report, checker.resultAlone earlier = .ok report) ∧
      checker.resultAlone entry = .error unknown

theorem decidedFieldByField (hignores : checker.IgnoresOthers submission) :
    checker.DecidedFieldByField submission where
  succeeds_iff := by
    rw [exists_ok_iff]
    simp only [exists_resultAlone_ok_iff]
  report := by
    intro report hreport
    have hknown := exists_ok_iff.mp ⟨report, hreport⟩
    obtain rfl := eq_expectedReport_of_ok hreport
    refine ⟨submission.entries.map fun entry => checker.expectedReport (.alone entry), ?_, ?_, ?_⟩
    · rw [List.map_map]
      apply List.map_congr_left
      intro entry hentry
      exact resultAlone_of_known (hknown entry hentry)
    · rw [List.flatMap_map]
      exact expectedErrors_eq_flatMap hignores
    · rw [List.all_map]
      exact valid_expectedReport_eq_all hignores
  fails_iff := by
    intro unknown
    unfold resultAlone
    simp only [result_eq_error_iff]
    rw [Plan.firstUnknown_iff_alone]
    simp only [← exists_resultAlone_ok_iff]
    rfl

/-- When no validator depends on other fields, a batch is decided field by field.
This is so without registered validators, since a built-in one answers by the value
and the arguments alone. -/
theorem validate_field_by_field :
    (∀ (checker : Checker) (submission : Submission),
      checker.IgnoresOthers submission → checker.DecidedFieldByField submission) ∧
    (∀ (checker : Checker) (submission : Submission),
      checker.registry.overrides = [] → checker.IgnoresOthers submission) ∧
    (∀ (builtin : Builtin) (context other : Context),
      other.value = context.value → other.args = context.args →
      builtin.validator.answer other = builtin.validator.answer context) := by
  refine ⟨fun _ _ => decidedFieldByField, ?_, ?_⟩
  · intro checker submission hnone
    exact ignoresOthers_of_no_overrides hnone submission
  · intro builtin context other hvalue hargs
    exact builtin.answer_congr hvalue hargs

/-- A validator that looks its own field up in the batch. -/
def repeated : Validator where
  origin := .custom
  answer := fun context => (context.sibling? context.key).any fun value =>
    value.equal context.value && 1 < context.value.charCount
  suspensions := fun _ => 1

theorem ignoresOthers_repeated : repeated.IgnoresOthers := by
  intro context batch hcontext hbatch
  have hfound := (FieldMap.get?_eq_some_iff _ _ _).mpr hcontext
  have hother := (FieldMap.get?_eq_some_iff _ _ _).mpr hbatch
  simp only [repeated, Context.sibling?, hfound, hother]

def contact : Checker where
  form := none
  rules :=
    { entries :=
        [("name", [⟨"repeated", []⟩, ⟨"length", ["2", "5"]⟩]), ("age", [⟨"isNumber", []⟩]),
          ("mail", [⟨"repeated", []⟩])]
      keys_nodup := by decide }
  registry := Registry.builtins.register "repeated" repeated

def sent : Submission where
  entries := [("age", .text "x"), ("mail", .text "a@b"), ("name", .text "n"), ("note", .bool true)]
  keys_nodup := by decide

theorem ignoresOthers_contact : contact.IgnoresOthers sent := by
  have hnames : ∀ key ∈ sent.keys, ∀ clause ∈ Plan.rulesOf contact.rules key,
      clause.name = "repeated" ∨ clause.name = "length" ∨ clause.name = "isNumber" := by decide
  intro key hkey clause hclause validator hresolve
  rcases hnames key hkey clause hclause with hname | hname | hname
  · rw [hname] at hresolve
    obtain rfl : repeated = validator := Option.some.inj hresolve
    exact ignoresOthers_repeated
  · rw [hname] at hresolve
    obtain rfl : Builtin.length.validator = validator := Option.some.inj hresolve
    exact Builtin.length.ignoresOthers_validator
  · rw [hname] at hresolve
    obtain rfl : Builtin.isNumber.validator = validator := Option.some.inj hresolve
    exact Builtin.isNumber.ignoresOthers_validator

theorem validate_contact_field_by_field :
    contact.IgnoresOthers sent ∧
    (contact.validate sent).result =
      .ok { valid := false,
            errors :=
              [{ key := "age", failed := ["isNumber"] },
                { key := "name", failed := ["repeated", "length"] }] } ∧
    ∀ entry ∈ sent.entries, ∃ report, contact.resultAlone entry = .ok report := by
  have hdecided := validate_field_by_field.1 contact sent ignoresOthers_contact
  have hresult : (contact.validate sent).result =
      .ok { valid := false,
            errors :=
              [{ key := "age", failed := ["isNumber"] },
                { key := "name", failed := ["repeated", "length"] }] } :=
    (result_of_ok rfl).trans rfl
  exact ⟨ignoresOthers_contact, hresult, hdecided.succeeds_iff.mp ⟨_, hresult⟩⟩

end Checker

end FormCheck
