import FormCheck.Proofs.FailedRules
import FormCheck.Proofs.UnresolvedRules
import FormCheck.Validator.Recipe

/-!
# Joined rule texts

Two rule texts with a bar between them are read as the rules of the first followed
by the rules of the second.  This carries over to validations.  A field with the
joined text can be validated when it can be validated with either part, and it then
fails with the rules that fail in the first part, followed by those that fail in the
second.  Other fields do not notice.
-/

namespace FormCheck

namespace RuleList

theorem parse_append_bar (first second : String) :
    parse (first ++ "|" ++ second) = parse first ++ parse second := by
  have hchars : (first ++ "|" ++ second).toList =
      first.toList ++ separator :: second.toList := by
    rw [String.toList_append, String.toList_append, List.append_assoc]
    rfl
  unfold parse
  rw [hchars, List.splitOn_append_cons_self, List.map_append]

end RuleList

namespace FieldMap

variable {α β : Type}

theorem map_insertEntry (f : α → β) (key : String) (value : α) (entries : List (String × α)) :
    (insertEntry key value entries).map (fun entry => (entry.1, f entry.2)) =
      insertEntry key (f value) (entries.map fun entry => (entry.1, f entry.2)) := by
  induction entries with
  | nil => rfl
  | cons entry rest ih =>
      simp only [insertEntry, List.map_cons]
      by_cases hkey : entry.1 = key
      · rw [if_pos hkey, if_pos hkey, List.map_cons]
      · rw [if_neg hkey, if_neg hkey, List.map_cons, ih]

theorem map_insert (f : α → β) (m : FieldMap α) (key : String) (value : α) :
    (m.insert key value).map f = (m.map f).insert key (f value) := by
  apply FieldMap.ext
  exact map_insertEntry f key value m.entries

end FieldMap

theorem Plan.rulesOf_insert (rules : RuleMap) (key other : String) (list : RuleList) :
    rulesOf (rules.insert key list) other = if other = key then list else rulesOf rules other := by
  unfold rulesOf
  rw [FieldMap.get?_insert]
  split
  · rfl
  · rfl

namespace Checker

variable {checker : Checker} {submission : Submission} {entry : String × Value}
  {key first second : String}

/-! ## A field with the rules of a text -/

def withRules (checker : Checker) (key text : String) : Checker :=
  { checker with rules := checker.rules.insert key (RuleList.parse text) }

def resultWith (checker : Checker) (key text : String) (submission : Submission) :
    Except UnknownRule Report :=
  ((checker.withRules key text).validate submission).result

theorem ofSetup_insert (setup : Setup) (key text : String) :
    ofSetup { setup with rules := setup.rules.insert key text } =
      (ofSetup setup).withRules key text := by
  apply Checker.ext
  · rfl
  · exact FieldMap.map_insert RuleList.parse setup.rules key text
  · rfl

theorem rulesOf_withRules (checker : Checker) (key text other : String) :
    Plan.rulesOf (checker.withRules key text).rules other =
      if other = key then RuleList.parse text else Plan.rulesOf checker.rules other :=
  Plan.rulesOf_insert checker.rules key other (RuleList.parse text)

/-! ## Failed validations -/

/-- A rule of a field has no validator, in the field itself or in another one. -/
theorem exists_resultWith_error_iff (text : String) :
    (∃ unknown, checker.resultWith key text submission = .error unknown) ↔
      (key ∈ submission.keys ∧
        ∃ clause ∈ RuleList.parse text, ¬ checker.registry.Knows clause.name) ∨
      ∃ other ∈ submission.keys, other ≠ key ∧
        ∃ clause ∈ Plan.rulesOf checker.rules other, ¬ checker.registry.Knows clause.name := by
  have hregistry : (checker.withRules key text).registry = checker.registry := rfl
  unfold resultWith
  rw [exists_error_iff, hregistry]
  constructor
  · intro hfails
    obtain ⟨other, hother, hunknown⟩ := hfails
    rw [rulesOf_withRules] at hunknown
    by_cases hkey : other = key
    · rw [if_pos hkey] at hunknown
      exact .inl ⟨hkey ▸ hother, hunknown⟩
    · rw [if_neg hkey] at hunknown
      exact .inr ⟨other, hother, hkey, hunknown⟩
  · intro hfails
    cases hfails with
    | inl hown =>
        refine ⟨key, hown.1, ?_⟩
        rw [rulesOf_withRules, if_pos rfl]
        exact hown.2
    | inr hothers =>
        obtain ⟨other, hother, hkey, hunknown⟩ := hothers
        refine ⟨other, hother, ?_⟩
        rw [rulesOf_withRules, if_neg hkey]
        exact hunknown

theorem exists_resultWith_joined_error_iff :
    (∃ unknown, checker.resultWith key (first ++ "|" ++ second) submission = .error unknown) ↔
      (∃ unknown, checker.resultWith key first submission = .error unknown) ∨
        ∃ unknown, checker.resultWith key second submission = .error unknown := by
  simp only [exists_resultWith_error_iff]
  rw [RuleList.parse_append_bar]
  simp only [List.mem_append, or_and_right, exists_or, and_or_left]
  exact or_or_distrib_right

/-- Whatever can be validated with the joined text can be validated with its parts. -/
theorem exists_ok_of_joined
    {report : Report} (hreport : checker.resultWith key (first ++ "|" ++ second) submission =
      .ok report) :
    (∃ one, checker.resultWith key first submission = .ok one) ∧
      ∃ other, checker.resultWith key second submission = .ok other := by
  have hnone : ¬ ((∃ unknown, checker.resultWith key first submission = .error unknown) ∨
      ∃ unknown, checker.resultWith key second submission = .error unknown) := by
    rw [← exists_resultWith_joined_error_iff, hreport]
    simp
  rw [not_or] at hnone
  constructor
  · cases hfirst : checker.resultWith key first submission with
    | error unknown => exact absurd ⟨unknown, hfirst⟩ hnone.1
    | ok one => exact ⟨one, rfl⟩
  · cases hsecond : checker.resultWith key second submission with
    | error unknown => exact absurd ⟨unknown, hsecond⟩ hnone.2
    | ok other => exact ⟨other, rfl⟩

/-! ## Failed rules -/

theorem failedRules_withRules_self (text : String) (hkey : entry.1 = key) :
    (checker.withRules key text).failedRules submission entry =
      ((RuleList.parse text).filter fun clause =>
        checker.refuses (Plan.contextOf checker.form submission entry clause)).map Clause.name := by
  rw [failedRules_eq_map_filter, rulesOf_withRules, if_pos hkey]
  rfl

theorem failedRules_joined (hkey : entry.1 = key) :
    (checker.withRules key (first ++ "|" ++ second)).failedRules submission entry =
      (checker.withRules key first).failedRules submission entry ++
        (checker.withRules key second).failedRules submission entry := by
  rw [failedRules_withRules_self _ hkey, failedRules_withRules_self _ hkey,
    failedRules_withRules_self _ hkey, RuleList.parse_append_bar, List.filter_append,
    List.map_append]

theorem failedRules_withRules_of_ne (text : String) (hkey : entry.1 ≠ key) :
    (checker.withRules key text).failedRules submission entry =
      checker.failedRules submission entry := by
  apply failedRules_congr
  · rw [rulesOf_withRules, if_neg hkey]
  · intro clause _
    rfl

/-! ## Reports -/

theorem errorsFor?_expectedReport_of_not_mem (hkey : key ∉ submission.keys) :
    (checker.expectedReport submission).errorsFor? key = none := by
  unfold Report.errorsFor?
  rw [Option.map_eq_none_iff, List.find?_eq_none]
  intro field hfield hsame
  have hlisted : field.key ∈ submission.keys :=
    (keys_expectedErrors_sublist checker submission).subset (List.mem_map_of_mem hfield)
  exact hkey (of_decide_eq_true hsame ▸ hlisted)

theorem errorsFor?_joined :
    (((checker.withRules key (first ++ "|" ++ second)).expectedReport submission).errorsFor?
        key).getD [] =
      (((checker.withRules key first).expectedReport submission).errorsFor? key).getD [] ++
        (((checker.withRules key second).expectedReport submission).errorsFor? key).getD [] := by
  by_cases hkey : key ∈ submission.keys
  · obtain ⟨entry, hentry, hname⟩ := List.mem_map.mp hkey
    have hjoined : (checker.withRules key (first ++ "|" ++ second)).failedRules submission entry =
        _ := failedRules_joined hname
    rw [← getD_errorsFor?_expectedReport hentry, ← getD_errorsFor?_expectedReport hentry,
      ← getD_errorsFor?_expectedReport hentry, hname] at hjoined
    exact hjoined
  · rw [errorsFor?_expectedReport_of_not_mem hkey, errorsFor?_expectedReport_of_not_mem hkey,
      errorsFor?_expectedReport_of_not_mem hkey]
    rfl

theorem filter_errors?_self (hkey : entry.1 = key) :
    (checker.errors? submission entry).filter (fun field => field.key ≠ key) = none := by
  unfold errors?
  split
  · rfl
  · simp [Option.filter, hkey]

/-- The entries of the other fields do not depend on the text. -/
theorem filter_expectedErrors_withRules (text : String) :
    ((checker.withRules key text).expectedErrors submission).filter (fun field => field.key ≠ key) =
      (checker.expectedErrors submission).filter fun field => field.key ≠ key := by
  rw [expectedErrors_eq_filterMap, expectedErrors_eq_filterMap, List.filter_filterMap,
    List.filter_filterMap]
  apply List.filterMap_congr
  intro entry _
  by_cases hkey : entry.1 = key
  · rw [filter_errors?_self hkey, filter_errors?_self hkey]
  · unfold errors?
    rw [failedRules_withRules_of_ne text hkey]

/-- Rule texts compose.  A field with two texts and a bar between them makes a validation fail
exactly when one of the texts does.  Otherwise the field fails with the rules of the first text
followed by those of the second, and the entries of the other fields are the same as with either. -/
theorem joined_rules_compose :
    (∀ first second : String,
      RuleList.parse (first ++ "|" ++ second) = RuleList.parse first ++ RuleList.parse second) ∧
    (∀ (setup : Setup) (key text : String),
      ofSetup { setup with rules := setup.rules.insert key text } =
        (ofSetup setup).withRules key text) ∧
    ∀ (checker : Checker) (key first second : String) (submission : Submission),
      ((∃ unknown, checker.resultWith key (first ++ "|" ++ second) submission = .error unknown) ↔
        (∃ unknown, checker.resultWith key first submission = .error unknown) ∨
          ∃ unknown, checker.resultWith key second submission = .error unknown) ∧
      ∀ report, checker.resultWith key (first ++ "|" ++ second) submission = .ok report →
        ∃ one other, checker.resultWith key first submission = .ok one ∧
          checker.resultWith key second submission = .ok other ∧
          (report.errorsFor? key).getD [] =
            (one.errorsFor? key).getD [] ++ (other.errorsFor? key).getD [] ∧
          report.errors.filter (fun field => field.key ≠ key) =
            one.errors.filter (fun field => field.key ≠ key) ∧
          report.errors.filter (fun field => field.key ≠ key) =
            other.errors.filter (fun field => field.key ≠ key) := by
  refine ⟨RuleList.parse_append_bar, ofSetup_insert, ?_⟩
  intro checker key first second submission
  refine ⟨exists_resultWith_joined_error_iff, ?_⟩
  intro report hreport
  obtain ⟨⟨one, hone⟩, other, hother⟩ := exists_ok_of_joined hreport
  refine ⟨one, other, hone, hother, ?_⟩
  rw [eq_expectedReport_of_ok hreport, eq_expectedReport_of_ok hone,
    eq_expectedReport_of_ok hother]
  have herrors : ∀ text, ((checker.withRules key text).expectedErrors submission).filter
      (fun field => field.key ≠ key) = _ := filter_expectedErrors_withRules
  exact ⟨errorsFor?_joined, (herrors _).trans (herrors first).symm,
    (herrors _).trans (herrors second).symm⟩

/-- A form in which a rule with an empty name has a validator. -/
def article : Checker where
  form := some "shop"
  rules :=
    { entries := [("note", [⟨"isString", []⟩])]
      keys_nodup := by decide }
  registry := Registry.builtins.register "" ((Recipe.notIn ["ab"]).validator 1)

def offered : Submission where
  entries := [("code", .text "ab"), ("note", .bool true)]
  keys_nodup := by decide

theorem article_with_joined_rules :
    ∃ report one other,
      article.resultWith "code" ("length:3|" ++ "|" ++ "required|length::2") offered =
        .ok report ∧
      article.resultWith "code" "length:3|" offered = .ok one ∧
      article.resultWith "code" "required|length::2" offered = .ok other ∧
      (one.errorsFor? "code").getD [] ++ (other.errorsFor? "code").getD [] =
        ["length", "", "length"] ∧
      other.errors.filter (fun field => field.key ≠ "code") = [⟨"note", ["isString"]⟩] := by
  have hreport : article.resultWith "code" ("length:3|" ++ "|" ++ "required|length::2") offered =
      .ok { valid := false,
            errors := [⟨"code", ["length", "", "length"]⟩, ⟨"note", ["isString"]⟩] } :=
    (result_of_ok rfl).trans rfl
  have hcomposed := (joined_rules_compose.2.2 article "code" "length:3|" "required|length::2"
    offered).2 _ hreport
  obtain ⟨one, other, hone, hother, hfailed, -, hothers⟩ := hcomposed
  exact ⟨_, one, other, hreport, hone, hother, hfailed.symm, hothers.symm⟩

end Checker

end FormCheck
