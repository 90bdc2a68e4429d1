import FormCheck.Proofs.FailedRules
import FormCheck.Validator.Recipe

/-!
# The order of submission

The fields of a submission are checked in the order in which they are submitted.
When no validator looks at this order, it only decides the order of the errors: a
reordered submission can be validated if the first one can, every field fails with
the same rules, and the errors stand in the new order of the fields.  A validator
may still look at the other fields, by their keys.

Whether a validation fails does not depend on the order either, but which rule
without a validator is named does.
-/

namespace FormCheck

/-! ## Answers that do not depend on the order -/

def Validator.IgnoresOrder (validator : Validator) : Prop :=
  ∀ (context : Context) (batch : Submission),
    batch.entries.Perm context.submission.entries →
    validator.answer { context with submission := batch } = validator.answer context

theorem Builtin.ignoresOrder_validator (builtin : Builtin) :
    builtin.validator.IgnoresOrder :=
  fun _ _ _ => rfl

/-- Custom validators look other fields up by their keys or count them. -/
theorem Recipe.ignoresOrder_validator (recipe : Recipe) (suspensions : ℕ) :
    (recipe.validator suspensions).IgnoresOrder := by
  intro context batch hperm
  let moved : Context := { context with submission := batch }
  have hsibling : moved.sibling? = context.sibling? :=
    funext fun key => FieldMap.get?_eq_of_perm hperm key
  have hnamed : namedSibling? moved = namedSibling? context :=
    congrArg (context.arg? 0).bind hsibling
  have hpresent : moved.hasSibling = context.hasSibling := by
    funext key
    have hkey := (hperm.map Prod.fst).mem_iff (a := key)
    rw [Bool.eq_iff_iff]
    exact List.contains_iff_mem.trans (hkey.trans List.contains_iff_mem.symm)
  change recipe.answer moved = recipe.answer context
  cases recipe with
  | requiredIfNot => simp only [answer, hnamed, moved]
  | sameAs => simp only [answer, hnamed, moved]
  | hasAll => simp only [answer, hpresent, moved]
  | valueCount n =>
      have hsize : batch.size = context.submission.size := hperm.length_eq
      simp only [answer, hsize, moved]
  | const result => rfl
  | notIn excluded => rfl
  | even => rfl
  | formIs => rfl
  | argCount n => rfl
  | builtin name => rfl

namespace Checker

variable {checker : Checker} {submission reordered : Submission} {entry : String × Value}

/-- No validator of a rule of a submitted field depends on the order of submission. -/
def IgnoresOrder (checker : Checker) (submission : Submission) : Prop :=
  ∀ key ∈ submission.keys, ∀ clause ∈ Plan.rulesOf checker.rules key, ∀ validator,
    checker.registry.resolve? clause.name = some validator → validator.IgnoresOrder

/-! ## Reordered submissions -/

theorem exists_ok_iff_of_perm (hperm : reordered.entries.Perm submission.entries) :
    (∃ report, (checker.validate reordered).result = .ok report) ↔
      ∃ report, (checker.validate submission).result = .ok report := by
  rw [exists_ok_iff, exists_ok_iff]
  simp only [hperm.mem_iff]

theorem failedRules_of_perm
    (hperm : reordered.entries.Perm submission.entries)
    (hignores : checker.IgnoresOrder submission) (hentry : entry ∈ submission.entries) :
    checker.failedRules reordered entry = checker.failedRules submission entry := by
  apply failedRules_congr rfl
  intro clause hclause
  apply refuses_congr_batch
  intro validator hresolve
  exact hignores entry.1 (List.mem_map_of_mem hentry) clause hclause validator hresolve
    (Plan.contextOf checker.form submission entry clause) reordered hperm

theorem expectedErrors_perm
    (hperm : reordered.entries.Perm submission.entries)
    (hignores : checker.IgnoresOrder submission) :
    (checker.expectedErrors reordered).Perm (checker.expectedErrors submission) := by
  have hsame : submission.entries.filterMap (checker.errors? reordered) =
      submission.entries.filterMap (checker.errors? submission) := by
    apply List.filterMap_congr
    intro entry hentry
    unfold errors?
    rw [failedRules_of_perm hperm hignores hentry]
  rw [expectedErrors_eq_filterMap, expectedErrors_eq_filterMap, ← hsame]
  exact hperm.filterMap _

/-- A reordered submission can be validated when the first one can.  Both are then
valid or both are not, and the same rules of every field fail.  The errors are the
same ones and stand in the order in which the fields are now submitted. -/
theorem validate_reordered
    (checker : Checker) (submission reordered : Submission)
    (hperm : reordered.entries.Perm submission.entries)
    (hignores : checker.IgnoresOrder submission) :
    ((∃ report, (checker.validate reordered).result = .ok report) ↔
      ∃ report, (checker.validate submission).result = .ok report) ∧
    ∀ report other, (checker.validate submission).result = .ok report →
      (checker.validate reordered).result = .ok other →
      other.valid = report.valid ∧
      (∀ key, other.errorsFor? key = report.errorsFor? key) ∧
      other.errors.Perm report.errors ∧
      (other.errors.map FieldErrors.key).Sublist reordered.keys := by
  refine ⟨exists_ok_iff_of_perm hperm, ?_⟩
  intro report other hreport hother
  obtain rfl := eq_expectedReport_of_ok hreport
  obtain rfl := eq_expectedReport_of_ok hother
  have herrors := expectedErrors_perm hperm hignores
  refine ⟨?_, ?_, herrors, keys_expectedErrors_sublist checker reordered⟩
  · change (checker.expectedErrors reordered).isEmpty = (checker.expectedErrors submission).isEmpty
    rw [Bool.eq_iff_iff, List.isEmpty_iff, List.isEmpty_iff, ← List.length_eq_zero_iff,
      herrors.length_eq, List.length_eq_zero_iff]
  · intro key
    exact Report.errorsFor?_eq_of_perm (nodup_keys_expectedErrors checker submission) herrors

/-- A form whose second password has to be the first one again. -/
def passwords : Checker where
  form := none
  rules :=
    { entries :=
        [("password", [⟨"length", ["8"]⟩, ⟨"same", ["again"]⟩]),
          ("again", [⟨"same", ["password"]⟩]), ("name", [⟨"required", []⟩])]
      keys_nodup := by decide }
  registry := Registry.builtins.register "same" (Recipe.sameAs.validator 1)

def typed : Submission where
  entries := [("password", .text "secret"), ("name", .text "n"), ("again", .text "Secret")]
  keys_nodup := by decide

def typedBackwards : Submission where
  entries := [("again", .text "Secret"), ("name", .text "n"), ("password", .text "secret")]
  keys_nodup := by decide

theorem ignoresOrder_passwords : passwords.IgnoresOrder typed := by
  have hnames : ∀ key ∈ typed.keys, ∀ clause ∈ Plan.rulesOf passwords.rules key,
      clause.name = "same" ∨ clause.name = "length" ∨ clause.name = "required" := by decide
  intro key hkey clause hclause validator hresolve
  rcases hnames key hkey clause hclause with hname | hname | hname
  · rw [hname] at hresolve
    obtain rfl : Recipe.sameAs.validator 1 = validator := Option.some.inj hresolve
    exact Recipe.ignoresOrder_validator _ _
  · rw [hname] at hresolve
    obtain rfl : Builtin.length.validator = validator := Option.some.inj hresolve
    exact Builtin.length.ignoresOrder_validator
  · rw [hname] at hresolve
    obtain rfl : Builtin.required.validator = validator := Option.some.inj hresolve
    exact Builtin.required.ignoresOrder_validator

theorem validate_typedBackwards :
    typedBackwards.entries.Perm typed.entries ∧ passwords.IgnoresOrder typed ∧
    (passwords.validate typed).result =
      .ok { valid := false,
            errors :=
              [{ key := "password", failed := ["length", "same"] },
                { key := "again", failed := ["same"] }] } ∧
    ∃ other, (passwords.validate typedBackwards).result = .ok other ∧
      other.valid = false ∧ other.errorsFor? "password" = some ["length", "same"] ∧
      (other.errors.map FieldErrors.key).Sublist ["again", "name", "password"] := by
  have hperm : typedBackwards.entries.Perm typed.entries := by decide
  have hresult : (passwords.validate typed).result =
      .ok { valid := false,
            errors :=
              [{ key := "password", failed := ["length", "same"] },
                { key := "again", failed := ["same"] }] } :=
    (result_of_ok rfl).trans rfl
  have hreordered :=
    validate_reordered passwords typed typedBackwards hperm ignoresOrder_passwords
  obtain ⟨other, hother⟩ := hreordered.1.mpr ⟨_, hresult⟩
  obtain ⟨hvalid, herrors, -, horder⟩ := hreordered.2 _ other hresult hother
  refine ⟨hperm, ignoresOrder_passwords, hresult, other, hother, hvalid, ?_, horder⟩
  rw [herrors]
  rfl

end Checker

end FormCheck
