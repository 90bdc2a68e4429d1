import FormCheck.Proofs.FailedRules
import FormCheck.Proofs.StartedChecks
import Mathlib.Data.List.Permutation

/-!
# What a validation depends on

A validation looks up the rules of the submitted fields and the validators of
these rules, and nothing else of the form and of the registry.  Two checkers that
agree on them come to the same result, and the same questions are asked.

The order in which the questions are asked has one more source.  It follows from
the turns that the checks take, hence from how often their validators suspend.
It is the same when the validators suspend alike, and also when every field
begins all its checks at once.
-/

namespace FormCheck

/-! ## Plans that ask and wait alike -/

namespace Plan

def questions (plan : Plan) : List (List Context) :=
  plan.map fun field => field.checks.map Check.context

def waits (plan : Plan) : List (List ℕ) :=
  plan.map fun field =>
    field.checks.map fun check => check.validator.suspensions check.context

theorem mapIdx_map
    {α β γ : Type} (g : α → β) (f : ℕ → β → γ) (l : List α) :
    (l.map g).mapIdx f = l.mapIdx fun index a => f index (g a) := by
  apply List.ext_getElem?
  intro index
  rw [List.getElem?_mapIdx, List.getElem?_mapIdx, List.getElem?_map, Option.map_map]
  rfl

theorem jobs_ofPlan (plan : Plan) :
    Run.jobs (Run.ofPlan plan) =
      Group.ofJobs (plan.waits.mapIdx fun number waits =>
        Group.ofJobs (waits.mapIdx fun task more =>
          { item := { field := number, task }, more })) := by
  unfold Run.jobs Run.ofPlan waits FieldRun.jobs FieldRun.ofPlan
  simp only [mapIdx_map]
  rfl

theorem schedule_ofPlan_congr {plan other : Plan} (hwaits : other.waits = plan.waits) :
    Run.schedule (Run.ofPlan other) = Run.schedule (Run.ofPlan plan) := by
  unfold Run.schedule
  rw [jobs_ofPlan, jobs_ofPlan, hwaits]

theorem contexts_startsAt_ofPlan (plan : Plan) (place : Place) :
    (Run.startsAt (Run.ofPlan plan) place).map Check.context =
      ((plan.questions[place.field]?).bind fun contexts => contexts[place.task]?).toList := by
  unfold Run.startsAt Run.task? Run.ofPlan questions FieldRun.ofPlan
  rw [List.getElem?_map, List.getElem?_map]
  cases plan[place.field]? with
  | none => rfl
  | some field =>
      simp only [Option.map_some, Option.bind_some, List.getElem?_map]
      cases field.checks[place.task]? with
      | none => rfl
      | some check => rfl

/-- Plans that ask alike and wait alike ask in the same order. -/
theorem contexts_started_congr
    {plan other : Plan} (hasked : other.questions = plan.questions)
    (hwaits : other.waits = plan.waits) :
    other.carryOut.started.map Check.context = plan.carryOut.started.map Check.context := by
  rw [started_carryOut, started_carryOut, Run.started_eq, Run.started_eq,
    schedule_ofPlan_congr hwaits, List.map_flatMap, List.map_flatMap]
  simp only [contexts_startsAt_ofPlan, hasked]

end Plan

/-! ## Agreement on what is submitted -/

def Registry.suspensions (registry : Registry) (context : Context) : ℕ :=
  (registry.resolve? context.rule).elim 0 fun validator => validator.suspensions context

namespace Plan

variable {form : Option String} {rules : RuleMap} {registry : Registry}
  {submission : Submission} {plan : Plan}

theorem Covers.questions_eq (hcovers : Covers form rules registry submission plan) :
    plan.questions =
      (submission.entries.filter fun entry => !(rulesOf rules entry.1).isEmpty).map
        (contextsOf form rules submission) := by
  have hcontexts := congrArg (List.map Prod.snd) hcovers.contexts
  rw [List.map_map, List.map_map] at hcontexts
  exact hcontexts

theorem Covers.waits_eq (hcovers : Covers form rules registry submission plan) :
    plan.waits = plan.questions.map fun contexts => contexts.map registry.suspensions := by
  unfold waits questions
  rw [List.map_map]
  apply List.map_congr_left
  intro field hfield
  rw [Function.comp_apply, List.map_map]
  apply List.map_congr_left
  intro check hcheck
  rw [Function.comp_apply, Registry.suspensions, hcovers.resolved field hfield check hcheck]
  rfl

end Plan

namespace Checker

/-- The checkers give the submitted fields the same rules, where a field that is not
mentioned has none.  The validators of these rules give the same answers, or a rule
has no validator in either checker. -/
structure AgreeOn (submission : Submission) (checker other : Checker) : Prop where
  form : other.form = checker.form
  rules : ∀ key ∈ submission.keys,
    Plan.rulesOf other.rules key = Plan.rulesOf checker.rules key
  answers : ∀ key ∈ submission.keys, ∀ clause ∈ Plan.rulesOf checker.rules key,
    (other.registry.resolve? clause.name).map Validator.answer =
      (checker.registry.resolve? clause.name).map Validator.answer

/-- The validators of the rules of the submitted fields suspend equally often. -/
def SuspendAlike (submission : Submission) (checker other : Checker) : Prop :=
  ∀ entry ∈ submission.entries,
    ∀ context ∈ Plan.contextsOf checker.form checker.rules submission entry,
      other.registry.suspensions context = checker.registry.suspensions context

namespace AgreeOn

variable {checker other : Checker} {submission : Submission}

theorem knows_iff
    (hagree : AgreeOn submission checker other) {key : String} (hkey : key ∈ submission.keys)
    {clause : Clause} (hclause : clause ∈ Plan.rulesOf checker.rules key) :
    other.registry.Knows clause.name ↔ checker.registry.Knows clause.name := by
  have hanswer := congrArg Option.isSome (hagree.answers key hkey clause hclause)
  rw [Option.isSome_map, Option.isSome_map] at hanswer
  rw [Registry.knows_iff_resolve?, Registry.knows_iff_resolve?,
    ← Option.isSome_iff_exists, ← Option.isSome_iff_exists, hanswer]

theorem contextsOf_eq
    (hagree : AgreeOn submission checker other) {entry : String × Value}
    (hentry : entry ∈ submission.entries) :
    Plan.contextsOf other.form other.rules submission entry =
      Plan.contextsOf checker.form checker.rules submission entry := by
  unfold Plan.contextsOf
  rw [hagree.form, hagree.rules entry.1 (List.mem_map_of_mem hentry)]

theorem failedRules_eq
    (hagree : AgreeOn submission checker other) {entry : String × Value}
    (hentry : entry ∈ submission.entries) :
    other.failedRules submission entry = checker.failedRules submission entry := by
  have hkey : entry.1 ∈ submission.keys := List.mem_map_of_mem hentry
  apply failedRules_congr (hagree.rules entry.1 hkey)
  intro clause hclause
  rw [refuses_eq_map, refuses_eq_map, hagree.form]
  change (((other.registry.resolve? clause.name).map Validator.answer).map _).getD false =
    (((checker.registry.resolve? clause.name).map Validator.answer).map _).getD false
  rw [hagree.answers entry.1 hkey clause hclause]

theorem expectedReport_eq (hagree : AgreeOn submission checker other) :
    other.expectedReport submission = checker.expectedReport submission := by
  have herrors : other.expectedErrors submission = checker.expectedErrors submission := by
    unfold expectedErrors
    apply List.filterMap_congr
    intro entry hentry
    rw [hagree.failedRules_eq hentry]
  unfold expectedReport
  rw [herrors]

theorem make?_eq_error
    (hagree : AgreeOn submission checker other) {unknown : UnknownRule}
    (hplan : Plan.make? checker.form checker.rules checker.registry submission =
      .error unknown) :
    Plan.make? other.form other.rules other.registry submission = .error unknown := by
  rw [Plan.make?_eq_error_iff] at hplan ⊢
  apply firstUnknown_of_agree hagree.rules _ hplan
  intro key hkey clause hclause
  exact hagree.knows_iff hkey hclause

theorem exists_make?_ok
    (hagree : AgreeOn submission checker other) {plan : Plan}
    (hplan : Plan.make? checker.form checker.rules checker.registry submission = .ok plan) :
    ∃ twin, Plan.make? other.form other.rules other.registry submission = .ok twin := by
  have hknown := Plan.exists_make?_ok_iff.mp ⟨plan, hplan⟩
  rw [Plan.exists_make?_ok_iff]
  intro entry hentry clause hclause
  have hkey : entry.1 ∈ submission.keys := List.mem_map_of_mem hentry
  rw [hagree.rules entry.1 hkey] at hclause
  exact (hagree.knows_iff hkey hclause).mpr (hknown entry hentry clause hclause)

theorem result_eq (hagree : AgreeOn submission checker other) :
    (other.validate submission).result = (checker.validate submission).result := by
  cases hplan : Plan.make? checker.form checker.rules checker.registry submission with
  | error unknown =>
      rw [validate_of_error hplan, validate_of_error (hagree.make?_eq_error hplan)]
  | ok plan =>
      obtain ⟨twin, htwin⟩ := hagree.exists_make?_ok hplan
      rw [result_eq_expectedReport hplan, result_eq_expectedReport htwin,
        hagree.expectedReport_eq]

/-! ## The questions that are asked -/

/-- What holds of the contexts that any two plans ask about holds of those that are
asked about in the two validations: when no plan can be made, there are none. -/
theorem contexts_started
    (hagree : AgreeOn submission checker other)
    {relation : List Context → List Context → Prop} (hnone : relation [] [])
    (hplans : ∀ plan twin,
      Plan.make? checker.form checker.rules checker.registry submission = .ok plan →
      Plan.make? other.form other.rules other.registry submission = .ok twin →
      relation (twin.carryOut.started.map Check.context)
        (plan.carryOut.started.map Check.context)) :
    relation ((other.validate submission).started.map Check.context)
      ((checker.validate submission).started.map Check.context) := by
  cases hplan : Plan.make? checker.form checker.rules checker.registry submission with
  | error unknown =>
      rw [validate_of_error hplan, validate_of_error (hagree.make?_eq_error hplan)]
      exact hnone
  | ok plan =>
      obtain ⟨twin, htwin⟩ := hagree.exists_make?_ok hplan
      rw [validate_of_ok hplan, validate_of_ok htwin]
      exact hplans plan twin hplan htwin

theorem flatMap_contextsOf_eq (hagree : AgreeOn submission checker other) :
    submission.entries.flatMap (Plan.contextsOf other.form other.rules submission) =
      submission.entries.flatMap (Plan.contextsOf checker.form checker.rules submission) := by
  apply List.flatMap_congr
  intro entry hentry
  exact hagree.contextsOf_eq hentry

theorem started_perm (hagree : AgreeOn submission checker other) :
    ((other.validate submission).started.map Check.context).Perm
      ((checker.validate submission).started.map Check.context) := by
  apply hagree.contexts_started (List.Perm.refl [])
  intro plan twin hplan htwin
  have hasked := plan.started_carryOut_perm.map Check.context
  have htwinAsked := twin.started_carryOut_perm.map Check.context
  rw [(Plan.covers_of_make? hplan).flatMap_contexts] at hasked
  rw [(Plan.covers_of_make? htwin).flatMap_contexts, hagree.flatMap_contextsOf_eq] at htwinAsked
  exact htwinAsked.trans hasked.symm

theorem questions_eq
    (hagree : AgreeOn submission checker other) {plan twin : Plan}
    (hcovers : Plan.Covers checker.form checker.rules checker.registry submission plan)
    (htwin : Plan.Covers other.form other.rules other.registry submission twin) :
    twin.questions = plan.questions := by
  rw [hcovers.questions_eq, htwin.questions_eq]
  have hfilter :
      submission.entries.filter (fun entry => !(Plan.rulesOf other.rules entry.1).isEmpty) =
        submission.entries.filter
          (fun entry => !(Plan.rulesOf checker.rules entry.1).isEmpty) := by
    apply List.filter_congr
    intro entry hentry
    rw [hagree.rules entry.1 (List.mem_map_of_mem hentry)]
  rw [hfilter]
  apply List.map_congr_left
  intro entry hentry
  exact hagree.contextsOf_eq (List.mem_filter.mp hentry).1

theorem started_eq_of_suspendAlike
    (hagree : AgreeOn submission checker other)
    (halike : SuspendAlike submission checker other) :
    (other.validate submission).started.map Check.context =
      (checker.validate submission).started.map Check.context := by
  apply hagree.contexts_started rfl
  intro plan twin hplan htwin
  have hcovers := Plan.covers_of_make? hplan
  have htwinCovers := Plan.covers_of_make? htwin
  have hasked := hagree.questions_eq hcovers htwinCovers
  apply Plan.contexts_started_congr hasked
  rw [hcovers.waits_eq, htwinCovers.waits_eq, hasked]
  apply List.map_congr_left
  intro contexts hcontexts
  apply List.map_congr_left
  intro context hcontext
  rw [hcovers.questions_eq] at hcontexts
  obtain ⟨entry, hentry, rfl⟩ := List.mem_map.mp hcontexts
  exact halike entry (List.mem_filter.mp hentry).1 context hcontext

theorem started_eq_of_beginsInOrder
    (hagree : AgreeOn submission checker other)
    (hbegins : ∀ plan,
      Plan.make? checker.form checker.rules checker.registry submission = .ok plan →
      plan.BeginsInOrder)
    (htwinBegins : ∀ twin,
      Plan.make? other.form other.rules other.registry submission = .ok twin →
      twin.BeginsInOrder) :
    (other.validate submission).started.map Check.context =
      (checker.validate submission).started.map Check.context := by
  apply hagree.contexts_started rfl
  intro plan twin hplan htwin
  rw [Plan.started_of_beginsInOrder (hbegins plan hplan),
    Plan.started_of_beginsInOrder (htwinBegins twin htwin),
    (Plan.covers_of_make? hplan).flatMap_contexts,
    (Plan.covers_of_make? htwin).flatMap_contexts, hagree.flatMap_contextsOf_eq]

end AgreeOn

end Checker

/-! ## Rules and validators that are not looked up -/

theorem Plan.make?_congr
    {form : Option String} {rules otherRules : RuleMap} {registry otherRegistry : Registry}
    {submission : Submission}
    (hrules : ∀ key ∈ submission.keys, rulesOf otherRules key = rulesOf rules key)
    (hresolve : ∀ key ∈ submission.keys, ∀ clause ∈ rulesOf rules key,
      otherRegistry.resolve? clause.name = registry.resolve? clause.name) :
    make? form otherRules otherRegistry submission = make? form rules registry submission := by
  have hfilter :
      submission.entries.filter (fun entry => !(rulesOf otherRules entry.1).isEmpty) =
        submission.entries.filter (fun entry => !(rulesOf rules entry.1).isEmpty) := by
    apply List.filter_congr
    intro entry hentry
    rw [hrules entry.1 (List.mem_map_of_mem hentry)]
  unfold make?
  rw [hfilter]
  apply mapM_congr
  intro entry hentry
  have hkey : entry.1 ∈ submission.keys :=
    List.mem_map_of_mem (List.mem_filter.mp hentry).1
  have hchecks :
      (rulesOf rules entry.1).mapM (check? form otherRegistry submission entry.1 entry.2) =
        (rulesOf rules entry.1).mapM (check? form registry submission entry.1 entry.2) := by
    apply mapM_congr
    intro clause hclause
    unfold check?
    rw [hresolve entry.1 hkey clause hclause]
  unfold field?
  rw [hrules entry.1 hkey, hchecks]

theorem Plan.rulesOf_eq_of_perm
    {rules otherRules : RuleMap} (hperm : otherRules.entries.Perm rules.entries) (key : String) :
    rulesOf otherRules key = rulesOf rules key := by
  unfold rulesOf
  rw [FieldMap.get?_eq_of_perm hperm]

theorem Registry.resolve?_register_of_ne
    (registry : Registry) {name other : String} (hne : other ≠ name) (validator : Validator) :
    (registry.register name validator).resolve? other = registry.resolve? other := by
  unfold resolve?
  rw [lookup_register, if_neg hne]

namespace Checker

theorem validate_congr
    {checker other : Checker} {submission : Submission}
    (hform : other.form = checker.form)
    (hrules : ∀ key ∈ submission.keys,
      Plan.rulesOf other.rules key = Plan.rulesOf checker.rules key)
    (hresolve : ∀ key ∈ submission.keys, ∀ clause ∈ Plan.rulesOf checker.rules key,
      other.registry.resolve? clause.name = checker.registry.resolve? clause.name) :
    other.validate submission = checker.validate submission := by
  unfold validate
  rw [hform, Plan.make?_congr hrules hresolve]

/-! ## Relevance -/

/-- If a plan can be made, the first call of every field polls all its checks. -/
def BeginsInOrder (checker : Checker) (submission : Submission) : Prop :=
  ∀ plan, Plan.make? checker.form checker.rules checker.registry submission = .ok plan →
    plan.BeginsInOrder

theorem beginsInOrder_of_few_rules
    {checker : Checker} {submission : Submission}
    (hfew : ∀ key ∈ submission.keys,
      (Plan.rulesOf checker.rules key).length ≤ Group.greatestSize) :
    checker.BeginsInOrder submission := by
  intro plan hplan
  apply Plan.beginsInOrder_of_small_or_prompt
  intro field hfield
  left
  have hasked : field.checks.map Check.context ∈ plan.questions := List.mem_map_of_mem hfield
  rw [(Plan.covers_of_make? hplan).questions_eq] at hasked
  obtain ⟨entry, hentry, hcontexts⟩ := List.mem_map.mp hasked
  have hlength := congrArg List.length hcontexts
  rw [Plan.contextsOf, List.length_map, List.length_map] at hlength
  rw [← hlength]
  exact hfew entry.1 (List.mem_map_of_mem (List.mem_filter.mp hentry).1)

theorem AgreeOn.beginsInOrder_of_few_rules
    {checker other : Checker} {submission : Submission}
    (hagree : AgreeOn submission checker other)
    (hfew : ∀ key ∈ submission.keys,
      (Plan.rulesOf checker.rules key).length ≤ Group.greatestSize) :
    other.BeginsInOrder submission := by
  apply Checker.beginsInOrder_of_few_rules
  intro key hkey
  rw [hagree.rules key hkey]
  exact hfew key hkey

/-- Checkers that agree on the rules of the submitted fields and on the answers to
them come to the same result, and they ask the same questions equally often.  They
ask them in the same order if the validators suspend alike or every field begins
all its checks at once, which it does if no submitted field has more than thirty
rules.  Nothing else counts: neither the rules of other fields, nor the order in
which the form gives the rules, nor validators that no rule names. -/
theorem validate_determined_by_submitted_rules (checker : Checker) (submission : Submission) :
    (∀ other, AgreeOn submission checker other →
      (other.validate submission).result = (checker.validate submission).result ∧
      ((other.validate submission).started.map Check.context).Perm
        ((checker.validate submission).started.map Check.context) ∧
      (SuspendAlike submission checker other ∨
          checker.BeginsInOrder submission ∧ other.BeginsInOrder submission →
        (other.validate submission).started.map Check.context =
          (checker.validate submission).started.map Check.context)) ∧
    (∀ other : Checker, other.form = checker.form →
      (∀ key ∈ submission.keys,
        Plan.rulesOf other.rules key = Plan.rulesOf checker.rules key) →
      (∀ key ∈ submission.keys, ∀ clause ∈ Plan.rulesOf checker.rules key,
        other.registry.resolve? clause.name = checker.registry.resolve? clause.name) →
      other.validate submission = checker.validate submission) ∧
    (∀ rules : RuleMap, rules.entries.Perm checker.rules.entries →
      { checker with rules }.validate submission = checker.validate submission) ∧
    (∀ name validator,
      (∀ key ∈ submission.keys, ∀ clause ∈ Plan.rulesOf checker.rules key,
        clause.name ≠ name) →
      { checker with registry := checker.registry.register name validator }.validate submission =
        checker.validate submission) ∧
    ((∀ key ∈ submission.keys,
        (Plan.rulesOf checker.rules key).length ≤ Group.greatestSize) →
      checker.BeginsInOrder submission ∧
      ∀ other, AgreeOn submission checker other → other.BeginsInOrder submission ∧
        (other.validate submission).started.map Check.context =
          (checker.validate submission).started.map Check.context) := by
  refine ⟨?_, fun _ => validate_congr, ?_, ?_, ?_⟩
  · intro other hagree
    refine ⟨hagree.result_eq, hagree.started_perm, ?_⟩
    intro horder
    cases horder with
    | inl halike => exact hagree.started_eq_of_suspendAlike halike
    | inr hbegins => exact hagree.started_eq_of_beginsInOrder hbegins.1 hbegins.2
  · intro rules hperm
    apply validate_congr
    · rfl
    · intro key _
      exact Plan.rulesOf_eq_of_perm hperm key
    · intro key _ clause _
      rfl
  · intro name validator hunnamed
    apply validate_congr
    · rfl
    · intro key _
      rfl
    · intro key hkey clause hclause
      exact checker.registry.resolve?_register_of_ne (hunnamed key hkey clause hclause) validator
  · intro hfew
    have hbegins : checker.BeginsInOrder submission := beginsInOrder_of_few_rules hfew
    refine ⟨hbegins, ?_⟩
    intro other hagree
    have hother : other.BeginsInOrder submission := hagree.beginsInOrder_of_few_rules hfew
    exact ⟨hother, hagree.started_eq_of_beginsInOrder hbegins hother⟩

def agreeing (suspensions : ℕ) : Validator where
  origin := .custom
  answer := fun _ => true
  suspensions := fun _ => suspensions

/-- Two fields that are submitted, one of them with rules. -/
def signing : Submission where
  entries := [("note", .bool false), ("name", .text "")]
  keys_nodup := by decide

def signUp : Checker where
  form := some "auth"
  rules :=
    { entries :=
        [("name", [⟨"required", []⟩, ⟨"free", ["a"]⟩]), ("note", []), ("code", [⟨"free", []⟩])]
      keys_nodup := by decide }
  registry := Registry.builtins.register "free" (agreeing 0)

/-- The fields in another order, the empty list left out, a rule without a validator
for a field that is not submitted, a validator that suspends and one that no rule names. -/
def signUpAgain : Checker where
  form := some "auth"
  rules :=
    { entries :=
        [("code", [⟨"unknown", []⟩]), ("name", [⟨"required", []⟩, ⟨"free", ["a"]⟩])]
      keys_nodup := by decide }
  registry := (Registry.builtins.register "free" (agreeing 2)).register "spare" (agreeing 1)

theorem agreeOn_signUpAgain : AgreeOn signing signUp signUpAgain := by
  refine ⟨rfl, by decide, ?_⟩
  have hnames : ∀ key ∈ signing.keys, ∀ clause ∈ Plan.rulesOf signUp.rules key,
      clause.name = "required" ∨ clause.name = "free" := by decide
  intro key hkey clause hclause
  cases hnames key hkey clause hclause with
  | inl hname => rw [hname]; rfl
  | inr hname => rw [hname]; rfl

theorem validate_signUpAgain_as_signUp :
    AgreeOn signing signUp signUpAgain ∧
    signUp.BeginsInOrder signing ∧ signUpAgain.BeginsInOrder signing ∧
    (signUpAgain.validate signing).result =
      .ok { valid := false, errors := [{ key := "name", failed := ["required"] }] } ∧
    (signUpAgain.validate signing).started.map Check.context =
      (signUp.validate signing).started.map Check.context := by
  obtain ⟨hagreeing, -, -, -, hfew⟩ := validate_determined_by_submitted_rules signUp signing
  obtain ⟨hbegins, hothers⟩ := hfew (by decide)
  have hagain : signUpAgain.BeginsInOrder signing := (hothers signUpAgain agreeOn_signUpAgain).1
  have hsame := hagreeing signUpAgain agreeOn_signUpAgain
  have hresult : (signUp.validate signing).result =
      .ok { valid := false, errors := [{ key := "name", failed := ["required"] }] } :=
    (result_of_ok rfl).trans rfl
  exact ⟨agreeOn_signUpAgain, hbegins, hagain, hsame.1.trans hresult,
    hsame.2.2 (.inr ⟨hbegins, hagain⟩)⟩

/-! ## The order of the questions -/

/-- A field with thirty-one rules, followed by a field with one. -/
def crowded (suspensions : ℕ) : Checker where
  form := none
  rules :=
    { entries := [("a", List.replicate 31 ⟨"wait", []⟩), ("b", [⟨"prompt", []⟩])]
      keys_nodup := by decide }
  registry :=
    { overrides := [("prompt", agreeing 0), ("wait", agreeing suspensions)]
      sorted := by
        change ["prompt", "wait"].Pairwise (· < ·)
        decide }

def crowding : Submission where
  entries := [("a", .text "x"), ("b", .bool true)]
  keys_nodup := by decide

def crowdedPlan (suspensions : ℕ) : Plan :=
  [{ key := "a",
     checks := List.replicate 31
       { validator := agreeing suspensions,
         context := ⟨"a", .text "x", crowding, none, "wait", []⟩ } },
    { key := "b",
      checks :=
        [{ validator := agreeing 0,
           context := ⟨"b", .bool true, crowding, none, "prompt", []⟩ }] }]

theorem make?_crowded (suspensions : ℕ) :
    Plan.make? (crowded suspensions).form (crowded suspensions).rules
      (crowded suspensions).registry crowding = .ok (crowdedPlan suspensions) := by
  rfl

/-- After two checks that suspend, the other field has its turn. -/
theorem exists_schedule_crowdedPlan :
    ∃ later, Run.schedule (Run.ofPlan (crowdedPlan 1)) = ⟨0, 0⟩ :: ⟨0, 1⟩ :: ⟨1, 0⟩ :: later := by
  have hcall : (Job.call (Run.jobs (Run.ofPlan (crowdedPlan 1)))).1 =
      [⟨0, 0⟩, ⟨0, 1⟩, ⟨1, 0⟩] := by cbv
  unfold Run.schedule
  rw [Job.run_eq, hcall]
  exact ⟨_, rfl⟩

theorem beginsInOrder_crowdedPlan : (crowdedPlan 0).BeginsInOrder := by
  apply Plan.beginsInOrder_of_small_or_prompt
  intro field hfield
  right
  revert field
  decide

/-- The same answers are not enough for the same order. -/
theorem crowded_asks_in_another_order :
    AgreeOn crowding (crowded 0) (crowded 1) ∧
    ((crowded 1).validate crowding).started.map Check.context ≠
      ((crowded 0).validate crowding).started.map Check.context := by
  constructor
  · refine ⟨rfl, fun _ _ => rfl, ?_⟩
    have hnames : ∀ key ∈ crowding.keys, ∀ clause ∈ Plan.rulesOf (crowded 0).rules key,
        clause.name = "wait" ∨ clause.name = "prompt" := by decide
    intro key hkey clause hclause
    cases hnames key hkey clause hclause with
    | inl hname => rw [hname]; rfl
    | inr hname => rw [hname]; rfl
  · obtain ⟨later, hschedule⟩ := exists_schedule_crowdedPlan
    rw [validate_of_ok (make?_crowded 1), validate_of_ok (make?_crowded 0),
      Plan.started_of_beginsInOrder beginsInOrder_crowdedPlan, Plan.started_carryOut, hschedule]
    -- The third question is about the second field in one run and about the first in the other.
    intro hsame
    have hthird := congrArg (fun contexts => (contexts[2]?).map Context.key) hsame
    change some "b" = some "a" at hthird
    exact absurd hthird (by decide)

end Checker

end FormCheck
