import FormCheck.Proofs.Relevance
import FormCheck.Proofs.SessionLineage
import FormCheck.Proofs.UnresolvedRules
import FormCheck.Validator.Recipe

/-!
# What a registration changes

Registering a validator gives a new checker, whose rules are written and parsed
anew.  Rules of the registered name have a validator from then on and are answered
by the new one; everything else stays.  This file follows the change from the
look-up of a name to the list of unresolved rules, to the validations that can be
made and to the failed rules of every field.
-/

namespace FormCheck

/-! ## Looking up names after a registration -/

namespace Registry

theorem resolve?_register_self (registry : Registry) (name : String) (validator : Validator) :
    (registry.register name validator).resolve? name = some validator := by
  unfold resolve?
  rw [lookup_register, if_pos rfl]

theorem knows_register_iff
    {registry : Registry} {name other : String} {validator : Validator} :
    (registry.register name validator).Knows other ↔ other = name ∨ registry.Knows other := by
  rw [knows_iff_resolve?, knows_iff_resolve?]
  by_cases hname : other = name
  · simp [hname, resolve?_register_self]
  · simp [hname, resolve?_register_of_ne]

theorem contains_register
    (registry : Registry) (name other : String) (validator : Validator) :
    (registry.register name validator).contains other =
      (decide (other = name) || registry.contains other) := by
  rw [Bool.eq_iff_iff, contains_iff_knows, knows_register_iff, Bool.or_eq_true, decide_eq_true_eq,
    contains_iff_knows]

end Registry

namespace Checker

variable {checker : Checker} {submission : Submission} {name : String} {validator : Validator}

/-- The checker whose registry has one more validator and whose rules are kept as they are. -/
def withValidator (checker : Checker) (name : String) (validator : Validator) : Checker :=
  { checker with registry := checker.registry.register name validator }

/-- Rules that can be written without loss are kept by a registration. -/
theorem extend_eq_withValidator
    (hrules : RuleMap.parse (RuleMap.texts checker.rules) = checker.rules) :
    checker.extend name validator = checker.withValidator name validator := by
  unfold extend
  rw [hrules]
  rfl

/-! ## Unresolved rules -/

theorem unresolvedRules_withValidator (checker : Checker) (name : String) (validator : Validator) :
    (checker.withValidator name validator).unresolvedRules =
      checker.unresolvedRules.filter fun pair => pair.2 ≠ name := by
  change checker.rules.entries.flatMap (checker.withValidator name validator).unresolvedOf =
    (checker.rules.entries.flatMap checker.unresolvedOf).filter _
  rw [List.filter_flatMap]
  apply List.flatMap_congr
  rintro ⟨key, rules⟩ _
  unfold unresolvedOf
  rw [List.filter_map, List.filter_filter]
  congr 1
  apply List.filter_congr
  intro clause _
  change (!(checker.registry.register name validator).contains clause.name) = _
  rw [Registry.contains_register, Bool.not_or]
  simp

/-! ## Validations -/

theorem exists_ok_withValidator
    (hok : ∃ report, (checker.validate submission).result = .ok report) :
    ∃ report, ((checker.withValidator name validator).validate submission).result = .ok report := by
  rw [exists_ok_iff] at hok ⊢
  intro entry hentry clause hclause
  exact Registry.knows_register_iff.mpr (.inr (hok entry hentry clause hclause))

/-- The failed rules of a submitted field are the same ones, apart from those of the name. -/
theorem filter_failedRules_withValidator (entry : String × Value) :
    ((checker.withValidator name validator).failedRules submission entry).filter (· ≠ name) =
      (checker.failedRules submission entry).filter (· ≠ name) := by
  have hrules : Plan.rulesOf (checker.withValidator name validator).rules entry.1 =
      Plan.rulesOf checker.rules entry.1 := rfl
  apply filter_failedRules_congr _ hrules
  intro clause _ hname
  have hresolve := checker.registry.resolve?_register_of_ne (of_decide_eq_true hname) validator
  rw [refuses_eq_map, refuses_eq_map]
  change ((((checker.registry.register name validator).resolve? clause.name).map _).map _).getD _ =
    (((checker.registry.resolve? clause.name).map _).map _).getD _
  rw [hresolve]
  rfl

theorem agreeOn_withValidator
    {replaced : Validator} (hreplaced : checker.registry.resolve? name = some replaced)
    (hanswer : ∀ context, validator.answer context = replaced.answer context)
    (submission : Submission) :
    AgreeOn submission checker (checker.withValidator name validator) where
  form := rfl
  rules _ _ := rfl
  answers := by
    intro key _ clause _
    change ((checker.registry.register name validator).resolve? clause.name).map _ = _
    by_cases hname : clause.name = name
    · rw [hname, Registry.resolve?_register_self, hreplaced]
      exact congrArg some (funext hanswer)
    · rw [Registry.resolve?_register_of_ne _ hname]

theorem suspendAlike_withValidator
    {replaced : Validator} (hreplaced : checker.registry.resolve? name = some replaced)
    (hsuspensions : ∀ context, validator.suspensions context = replaced.suspensions context)
    (submission : Submission) :
    SuspendAlike submission checker (checker.withValidator name validator) := by
  intro entry _ context _
  change (checker.registry.register name validator).suspensions context = _
  unfold Registry.suspensions
  by_cases hname : context.rule = name
  · rw [hname, Registry.resolve?_register_self, hreplaced]
    exact hsuspensions context
  · rw [Registry.resolve?_register_of_ne _ hname]

end Checker

namespace Session

theorem extend_eq_withValidator
    {steps : List Step} {number : ℕ} {checker : Checker}
    (hmade : (run steps).checkers[number]? = some checker)
    (name : String) (validator : Validator) :
    checker.extend name validator = checker.withValidator name validator := by
  obtain ⟨lineage, -, rfl⟩ := exists_lineage hmade
  exact Checker.extend_eq_withValidator (RuleMap.parse_texts_parse lineage.root.rules)

/-- A registration takes the rules of its name, and no others, off the list of
unresolved rules.  What could be validated still can be, and every submitted field
fails with the same rules, apart from those of the name.  A validator that answers
as the one it replaces changes no result; the same checks are started, and in the
same order if it also suspends as often. -/
theorem registration_affects_only_its_name
    (steps : List Step) (number : ℕ) (checker : Checker)
    (hmade : (run steps).checkers[number]? = some checker)
    (name : String) (validator : Validator) :
    (checker.extend name validator).unresolvedRules =
        checker.unresolvedRules.filter (fun pair => pair.2 ≠ name) ∧
    (∀ submission, (∃ report, (checker.validate submission).result = .ok report) →
      ∃ report, ((checker.extend name validator).validate submission).result = .ok report) ∧
    (∀ submission report other, (checker.validate submission).result = .ok report →
      ((checker.extend name validator).validate submission).result = .ok other →
      ∀ key ∈ submission.keys,
        ((other.errorsFor? key).getD []).filter (· ≠ name) =
          ((report.errorsFor? key).getD []).filter (· ≠ name)) ∧
    ∀ replaced, checker.registry.resolve? name = some replaced →
      (∀ context, validator.answer context = replaced.answer context) →
      ∀ submission,
        ((checker.extend name validator).validate submission).result =
            (checker.validate submission).result ∧
          (((checker.extend name validator).validate submission).started.map Check.context).Perm
            ((checker.validate submission).started.map Check.context) ∧
          ((∀ context, validator.suspensions context = replaced.suspensions context) →
            ((checker.extend name validator).validate submission).started.map Check.context =
              (checker.validate submission).started.map Check.context) := by
  rw [extend_eq_withValidator hmade]
  refine ⟨checker.unresolvedRules_withValidator name validator, ?_, ?_, ?_⟩
  · intro submission
    exact Checker.exists_ok_withValidator
  · intro submission report other hreport hother key hkey
    obtain ⟨entry, hentry, rfl⟩ := List.mem_map.mp hkey
    rw [Checker.eq_expectedReport_of_ok hreport, Checker.eq_expectedReport_of_ok hother,
      Checker.getD_errorsFor?_expectedReport hentry, Checker.getD_errorsFor?_expectedReport hentry]
    exact Checker.filter_failedRules_withValidator entry
  · intro replaced hreplaced hanswer submission
    have hagree := Checker.agreeOn_withValidator hreplaced hanswer submission
    refine ⟨hagree.result_eq, hagree.started_perm, ?_⟩
    intro hsuspensions
    exact hagree.started_eq_of_suspendAlike
      (Checker.suspendAlike_withValidator hreplaced hsuspensions submission)

/-- A form with a rule that no built-in validator answers to, and an empty rule text. -/
def shop : Setup where
  form := some "shop"
  rules :=
    { entries := [("code", "unique|length:2|unique:x"), ("note", "")]
      keys_nodup := by decide }
  validators := Registry.builtins

/-- After `unique` was registered only the empty rule is left on the list.  A validator that takes
the place of a built-in one and answers like it makes no difference. -/
theorem registrations_in_shop :
    let checker := Checker.ofSetup shop
    let unique := Recipe.validator (.notIn ["a", "ab"]) 2
    let length := Recipe.validator (.builtin "length") 1
    (run [.build shop]).checkers[0]? = some checker ∧
    checker.unresolvedRules = [("code", "unique"), ("code", "unique"), ("note", "")] ∧
    (checker.extend "unique" unique).unresolvedRules = [("note", "")] ∧
    checker.registry.resolve? "length" = some (Builtin.validator .length) ∧
    ∀ submission, ((checker.extend "length" length).validate submission).result =
      (checker.validate submission).result := by
  intro checker unique length
  have hmade : (run [.build shop]).checkers[0]? = some checker := rfl
  have hlisted : checker.unresolvedRules =
      [("code", "unique"), ("code", "unique"), ("note", "")] := by decide +kernel
  have hresolve : checker.registry.resolve? "length" = some (Builtin.validator .length) := rfl
  have hunique := (registration_affects_only_its_name _ 0 checker hmade "unique" unique).1
  have hlength := (registration_affects_only_its_name _ 0 checker hmade "length" length).2.2.2
    _ hresolve fun _ => rfl
  refine ⟨hmade, hlisted, ?_, hresolve, fun submission => (hlength submission).1⟩
  rw [hunique, hlisted]
  rfl

end Session

end FormCheck
