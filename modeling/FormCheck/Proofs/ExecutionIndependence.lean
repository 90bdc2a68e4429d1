import FormCheck.Proofs.Interleavings
import FormCheck.Proofs.Relevance

/-!
# Independence of the execution

A validation can be driven to its end by any executor: one that waits in turn with
other work, or one that polls it on the current thread until it is done.  They all
take some interleaving of the plan, so they all come to the same result.  The
result does not depend on the suspensions of the validators either.
-/

namespace FormCheck

namespace Checker

/-! ## Executors -/

/-- What a validation can come to, whoever polls it and in whatever order. -/
inductive Gives (checker : Checker) (submission : Submission) :
    Except UnknownRule Report → Prop where
  | refused {unknown : UnknownRule}
      (hplan : Plan.make? checker.form checker.rules checker.registry submission =
        .error unknown) :
      Gives checker submission (.error unknown)
  | passed
      (hplan : Plan.make? checker.form checker.rules checker.registry submission = .ok []) :
      Gives checker submission (.ok Report.passed)
  | reported {plan : Plan} {state : Joining} {report : Report}
      (hplan : Plan.make? checker.form checker.rules checker.registry submission = .ok plan)
      (hfields : plan ≠ [])
      (hleads : Joining.Leads (Joining.start plan) state)
      (hreport : state.report? = some report) :
      Gives checker submission (.ok report)

variable {checker other : Checker} {submission : Submission}

theorem gives_iff {result : Except UnknownRule Report} :
    checker.Gives submission result ↔ (checker.validate submission).result = result := by
  constructor
  · intro hgives
    cases hgives with
    | refused hplan => exact validate_eq_error_iff.mpr hplan
    | passed hplan => exact result_of_ok hplan
    | @reported plan state report hplan hfields hleads hreport =>
        have hstate := (Joining.follows_start plan).leads hleads
        rw [result_of_ok hplan, hstate.report_eq hreport]
  · rintro rfl
    cases hplan : Plan.make? checker.form checker.rules checker.registry submission with
    | error unknown =>
        rw [validate_eq_error_iff.mpr hplan]
        exact .refused hplan
    | ok plan =>
        rw [result_of_ok hplan]
        by_cases hfields : plan = []
        · subst hfields
          exact .passed hplan
        · -- The tasks are polled as scheduled, then the fields store their errors.
          have hpolled := Joining.leads_pollAll (Joining.start plan)
            (Run.schedule (Run.ofPlan plan))
          have hstate := (Joining.follows_start plan).leads hpolled
          obtain ⟨last, hstored, hlast⟩ := hstate.exists_report
          exact .reported hplan hfields (hpolled.trans hstored) hlast

/-! ## Validators that suspend differently -/

/-- The checkers differ at most in how often their validators suspend. -/
structure SameAnswers (checker other : Checker) : Prop where
  form : other.form = checker.form
  rules : other.rules = checker.rules
  answers : ∀ name, (other.registry.resolve? name).map Validator.answer =
    (checker.registry.resolve? name).map Validator.answer

theorem SameAnswers.agreeOn
    (hsame : SameAnswers checker other) (submission : Submission) :
    AgreeOn submission checker other where
  form := hsame.form
  rules _ _ := by rw [hsame.rules]
  answers _ _ clause _ := hsame.answers clause.name

/-- The result stays the same, and the same questions are asked, if perhaps in
another order. -/
theorem SameAnswers.validate
    (hsame : SameAnswers checker other) (submission : Submission) :
    (other.validate submission).result = (checker.validate submission).result ∧
      ((other.validate submission).started.map Check.context).Perm
        ((checker.validate submission).started.map Check.context) :=
  ⟨(hsame.agreeOn submission).result_eq, (hsame.agreeOn submission).started_perm⟩

/-- A registered validator is replaced by one with the same answers. -/
theorem sameAnswers_register
    (checker : Checker) (name : String) {validator twin : Validator}
    (hanswer : twin.answer = validator.answer) :
    SameAnswers { checker with registry := checker.registry.register name validator }
      { checker with registry := checker.registry.register name twin } := by
  refine ⟨rfl, rfl, ?_⟩
  intro asked
  simp only [Registry.resolve?, Registry.lookup_register]
  by_cases hasked : asked = name
  · simp [hasked, hanswer]
  · simp [hasked]

/-! ## All interleavings -/

/-- Whatever the suspensions and the interleaving are, every answer is held in the
slot of its own check and every field's errors in the slot of the field, there is no
report before all checks are settled, and the report is that of the checks answered
one after the other.  Every interleaving comes to its report after finitely many
steps.  So all executors of a validation agree, and validators can be replaced by
others that give the same answers and suspend differently. -/
theorem validate_independent_of_interleaving :
    (∀ (plan : Plan) (counts : Place → ℕ) (state : Joining),
      Joining.Leads (Joining.start (plan.suspending counts)) state →
      (∀ report, state.report? = some report →
        (Run.tasks state.run).all Task.isSettled = true ∧ report = plan.report) ∧
      (∀ place answer, state.answer? place = some answer →
        (plan.checkAt? place).map Check.passes = some answer) ∧
      (∀ (number : ℕ) (errors : FieldErrors), state.slots[number]? = some (some errors) →
        plan[number]?.map FieldPlan.errors = some errors) ∧
      (state.report? = none ↔ ∃ next, Joining.Step state next)) ∧
    (WellFounded fun next state : Joining => Joining.Step state next) ∧
    (∀ (checker : Checker) (submission : Submission) (result : Except UnknownRule Report),
      checker.Gives submission result ↔ (checker.validate submission).result = result) ∧
    ∀ checker other : Checker, SameAnswers checker other → ∀ submission,
      (other.validate submission).result = (checker.validate submission).result ∧
        ((other.validate submission).started.map Check.context).Perm
          ((checker.validate submission).started.map Check.context) := by
  refine ⟨?_, Joining.wellFounded_step, fun _ _ _ => gives_iff,
    fun _ _ hsame => hsame.validate⟩
  intro plan counts state hleads
  have hstate := (Joining.follows_start (plan.suspending counts)).leads hleads
  refine ⟨?_, ?_, ?_, hstate.report?_eq_none_iff_step⟩
  · intro report hreport
    refine ⟨hstate.all_settled hreport, ?_⟩
    rw [hstate.report_eq hreport, Plan.report_suspending]
  · intro place answer hanswer
    have hcheck := hstate.answer?_eq hanswer
    rw [Plan.checkAt?_suspending, Option.map_map] at hcheck
    exact hcheck
  · intro number errors hslot
    have hfield := hstate.stored_eq hslot
    rw [← List.getElem?_map, Plan.map_errors_suspending, List.getElem?_map] at hfield
    exact hfield

def refusing (suspensions : ℕ) : Validator where
  origin := .custom
  answer := fun _ => false
  suspensions := fun _ => suspensions

def waiting (suspensions : ℕ) : Checker where
  form := none
  rules :=
    { entries := [("a", [⟨"wait", []⟩, ⟨"required", []⟩]), ("b", [⟨"isTrue", []⟩])]
      keys_nodup := by decide }
  registry := Registry.builtins.register "wait" (refusing suspensions)

def paired : Submission where
  entries := [("a", .text "x"), ("b", .bool false)]
  keys_nodup := by decide

def pairedPlan : Plan :=
  [{ key := "a",
     checks :=
       [{ validator := refusing 0, context := ⟨"a", .text "x", paired, none, "wait", []⟩ },
         { validator := Builtin.validator .required,
           context := ⟨"a", .text "x", paired, none, "required", []⟩ }] },
    { key := "b",
      checks :=
        [{ validator := Builtin.validator .isTrue,
           context := ⟨"b", .bool false, paired, none, "isTrue", []⟩ }] }]

def firstSuspends (place : Place) : ℕ :=
  if place = { field := 0, task := 0 } then 1 else 0

def pairedReport : Report where
  valid := false
  errors := [{ key := "a", failed := ["wait"] }, { key := "b", failed := ["isTrue"] }]

/-- The second field is finished before the first one. -/
def pairedEnd : Joining where
  run := Run.pollAll (Run.ofPlan (pairedPlan.suspending firstSuspends))
    [⟨1, 0⟩, ⟨0, 1⟩, ⟨0, 0⟩, ⟨0, 0⟩]
  slots := pairedReport.errors.map some

theorem leads_pairedEnd :
    Joining.Leads (Joining.start (pairedPlan.suspending firstSuspends)) pairedEnd := by
  have hfirst := Joining.leads_pollAll (Joining.start (pairedPlan.suspending firstSuspends))
    [⟨1, 0⟩]
  refine hfirst.trans (.head (@Joining.Step.store _ 1 _ _ rfl rfl rfl) ?_)
  refine (Joining.leads_pollAll _ [⟨0, 1⟩, ⟨0, 0⟩, ⟨0, 0⟩]).trans ?_
  exact .single (@Joining.Step.store _ 0 _ _ rfl rfl rfl)

theorem validate_paired_independent :
    Joining.Leads (Joining.start (pairedPlan.suspending firstSuspends)) pairedEnd ∧
    pairedEnd.report? = some pairedReport ∧
    pairedPlan.report = pairedReport ∧
    ∀ suspensions, SameAnswers (waiting 0) (waiting suspensions) ∧
      ((waiting suspensions).validate paired).result = .ok pairedReport := by
  obtain ⟨hruns, -, -, hsame⟩ := validate_independent_of_interleaving
  have hreport : pairedEnd.report? = some pairedReport := rfl
  have hended := (hruns pairedPlan firstSuspends pairedEnd leads_pairedEnd).1 _ hreport
  refine ⟨leads_pairedEnd, hreport, hended.2.symm, ?_⟩
  intro suspensions
  have hplan : Plan.make? (waiting 0).form (waiting 0).rules (waiting 0).registry paired =
      .ok pairedPlan := rfl
  have htwin : SameAnswers (waiting 0) (waiting suspensions) :=
    sameAnswers_register (waiting 0) "wait" rfl
  refine ⟨htwin, ?_⟩
  rw [(hsame (waiting 0) (waiting suspensions) htwin paired).1, result_of_ok hplan, hended.2]

end Checker

end FormCheck
