import FormCheck.Proofs.ValidationOutcome

/-!
# Unresolved rules and failed validations

The rules without a validator can be listed before anything is submitted.  The
list goes through the fields of the form, a validation through the submitted
fields, and the two look validators up in different ways.  This file shows that
they agree: a validation fails exactly when a submitted field is listed, and it
names the first rule that is listed for that field.
-/

namespace FormCheck

/-! ## Lists by key -/

/-- What is listed under a key comes from the one entry with that key. -/
theorem filter_flatMap_key
    {α β : Type} {entries : List (String × α)} {f : String × α → List (String × β)}
    (hnodup : (entries.map Prod.fst).Nodup)
    (hkey : ∀ entry, ∀ pair ∈ f entry, pair.1 = entry.1) (key : String) :
    (entries.flatMap f).filter (fun pair => pair.1 = key) =
      (entries.lookup key).elim [] fun value => f (key, value) := by
  induction entries with
  | nil => rfl
  | cons entry rest ih =>
      obtain ⟨entryKey, value⟩ := entry
      rw [List.map_cons, List.nodup_cons] at hnodup
      rw [List.flatMap_cons, List.filter_append, ih hnodup.2]
      by_cases heq : key = entryKey
      · subst heq
        have hall : (f (key, value)).filter (fun pair => pair.1 = key) = f (key, value) := by
          rw [List.filter_eq_self]
          intro pair hpair
          simpa using hkey (key, value) pair hpair
        have habsent : rest.lookup key = none := FieldMap.lookup_eq_none_iff.mpr hnodup.1
        simp [hall, habsent]
      · have hnone : (f (entryKey, value)).filter (fun pair => pair.1 = key) = [] := by
          rw [List.filter_eq_nil_iff]
          intro pair hpair
          simpa [hkey (entryKey, value) pair hpair] using Ne.symm heq
        have hbeq : (key == entryKey) = false := beq_eq_false_iff_ne.mpr heq
        rw [hnone, List.nil_append, List.lookup_cons, hbeq]

theorem mem_of_pair_sublist
    {α : Type} {a b : α} {before after : List α}
    (hnodup : (before ++ b :: after).Nodup)
    (hsublist : [a, b].Sublist (before ++ b :: after)) : a ∈ before := by
  induction before with
  | nil =>
      have habsent : b ∉ after := (List.nodup_cons.mp hnodup).1
      cases hsublist with
      | cons _ hafter => exact absurd (hafter.subset (by simp)) habsent
      | cons_cons _ hafter => exact absurd (hafter.subset (by simp)) habsent
  | cons first rest ih =>
      cases hsublist with
      | cons _ hrest => exact List.mem_cons_of_mem first (ih (List.nodup_cons.mp hnodup).2 hrest)
      | cons_cons _ _ => exact List.mem_cons_self

namespace Plan

theorem mem_rulesOf_iff {rules : RuleMap} {key : String} {clause : Clause} :
    clause ∈ rulesOf rules key ↔ ∃ list, (key, list) ∈ rules.entries ∧ clause ∈ list := by
  simp only [← FieldMap.get?_eq_some_iff]
  unfold rulesOf
  cases rules.get? key <;> simp

theorem exists_entries_split
    {rules : RuleMap} {key : String} (hnonempty : rulesOf rules key ≠ []) :
    ∃ front back, rules.entries = front ++ (key, rulesOf rules key) :: back := by
  have hget : rules.get? key = some (rulesOf rules key) := by
    unfold rulesOf at hnonempty ⊢
    cases hfound : rules.get? key with
    | none => simp [hfound] at hnonempty
    | some list => rfl
  obtain ⟨front, back, hentries, -⟩ := List.lookup_eq_some_iff.mp hget
  exact ⟨front, back, hentries⟩

end Plan

namespace Checker

/-! ## The list of unresolved rules -/

def unresolvedOf (checker : Checker) (entry : String × RuleList) : List (String × String) :=
  (entry.2.filter fun clause => !checker.registry.contains clause.name).map fun clause =>
    (entry.1, clause.name)

theorem contains_eq_false_iff {checker : Checker} {name : String} :
    checker.registry.contains name = false ↔ ¬ checker.registry.Knows name := by
  rw [← Registry.contains_iff_knows, Bool.not_eq_true]

theorem mem_unresolvedOf_iff {checker : Checker} {entry : String × RuleList} {key rule : String} :
    (key, rule) ∈ checker.unresolvedOf entry ↔
      key = entry.1 ∧ ∃ clause ∈ entry.2,
        clause.name = rule ∧ ¬ checker.registry.Knows clause.name := by
  unfold unresolvedOf
  simp only [List.mem_map, List.mem_filter, Prod.mk.injEq, Bool.not_eq_true',
    contains_eq_false_iff]
  constructor
  · rintro ⟨clause, ⟨hclause, hunknown⟩, hkey, hname⟩
    exact ⟨hkey.symm, clause, hclause, hname, hunknown⟩
  · rintro ⟨hkey, clause, hclause, hname, hunknown⟩
    exact ⟨clause, ⟨hclause, hunknown⟩, hkey.symm, hname⟩

theorem mem_unresolvedRules_iff {checker : Checker} {key rule : String} :
    (key, rule) ∈ checker.unresolvedRules ↔
      ∃ clause ∈ Plan.rulesOf checker.rules key,
        clause.name = rule ∧ ¬ checker.registry.Knows clause.name := by
  change (key, rule) ∈ checker.rules.entries.flatMap checker.unresolvedOf ↔ _
  simp only [List.mem_flatMap, mem_unresolvedOf_iff, Plan.mem_rulesOf_iff]
  constructor
  · rintro ⟨⟨_, list⟩, hentry, rfl, clause, hclause, hfound⟩
    exact ⟨clause, ⟨list, hentry, hclause⟩, hfound⟩
  · rintro ⟨clause, ⟨list, hentry, hclause⟩, hfound⟩
    exact ⟨(key, list), hentry, rfl, clause, hclause, hfound⟩

/-- The rules that are listed under a key are those of the field, in the order
of declaration. -/
theorem filter_unresolvedRules (checker : Checker) (key : String) :
    checker.unresolvedRules.filter (fun pair => pair.1 = key) =
      checker.unresolvedOf (key, Plan.rulesOf checker.rules key) := by
  have hkey : ∀ entry, ∀ pair ∈ checker.unresolvedOf entry, pair.1 = entry.1 :=
    fun entry pair hpair => (mem_unresolvedOf_iff.mp hpair).1
  refine (filter_flatMap_key checker.rules.keys_nodup hkey key).trans ?_
  unfold Plan.rulesOf FieldMap.get?
  cases checker.rules.entries.lookup key <;> rfl

theorem unresolvedOf_eq_nil
    {checker : Checker} {entry : String × RuleList}
    (hknown : ∀ clause ∈ entry.2, checker.registry.Knows clause.name) :
    checker.unresolvedOf entry = [] := by
  rw [List.eq_nil_iff_forall_not_mem]
  rintro ⟨key, rule⟩ hmem
  obtain ⟨-, clause, hclause, -, hunknown⟩ := mem_unresolvedOf_iff.mp hmem
  exact hunknown (hknown clause hclause)

theorem head?_unresolvedOf
    {checker : Checker} {key : String} {earlier later : RuleList} {clause : Clause}
    (hearlier : ∀ rule ∈ earlier, checker.registry.Knows rule.name)
    (hclause : ¬ checker.registry.Knows clause.name) :
    (checker.unresolvedOf (key, earlier ++ clause :: later)).head? =
      some (key, clause.name) := by
  have hskipped : earlier.filter (fun rule => !checker.registry.contains rule.name) = [] := by
    rw [List.filter_eq_nil_iff]
    intro rule hrule
    simpa [Registry.contains_iff_knows] using hearlier rule hrule
  have hkept : checker.registry.contains clause.name = false := contains_eq_false_iff.mpr hclause
  simp [unresolvedOf, hskipped, hkept]

/-! ## Failed validations -/

theorem exists_error_iff {checker : Checker} {submission : Submission} :
    (∃ unknown, (checker.validate submission).result = .error unknown) ↔
      ∃ key ∈ submission.keys, ∃ clause ∈ Plan.rulesOf checker.rules key,
        ¬ checker.registry.Knows clause.name := by
  have hplanned :
      (∃ unknown, (checker.validate submission).result = .error unknown) ↔
        ¬ ∃ plan, Plan.make? checker.form checker.rules checker.registry
          submission = .ok plan := by
    simp only [validate_eq_error_iff]
    cases Plan.make? checker.form checker.rules checker.registry submission <;> simp
  rw [hplanned, Plan.exists_make?_ok_iff]
  simp [FieldMap.keys]

theorem exists_error_iff_unresolved {checker : Checker} {submission : Submission} :
    (∃ unknown, (checker.validate submission).result = .error unknown) ↔
      ∃ pair ∈ checker.unresolvedRules, pair.1 ∈ submission.keys := by
  rw [exists_error_iff]
  constructor
  · rintro ⟨key, hkey, clause, hclause, hunknown⟩
    exact ⟨(key, clause.name),
      mem_unresolvedRules_iff.mpr ⟨clause, hclause, rfl, hunknown⟩, hkey⟩
  · rintro ⟨⟨key, rule⟩, hpair, hkey⟩
    obtain ⟨clause, hclause, -, hunknown⟩ := mem_unresolvedRules_iff.mp hpair
    exact ⟨key, hkey, clause, hclause, hunknown⟩

theorem find?_unresolvedRules_of_error
    {checker : Checker} {submission : Submission} {unknown : UnknownRule}
    (hfails : (checker.validate submission).result = .error unknown) :
    checker.unresolvedRules.find? (fun pair => pair.1 = unknown.key) =
      some (unknown.key, unknown.rule) := by
  obtain ⟨before, entry, after, earlier, clause, later, -, hrules, -, hearlier, hclause, rfl⟩ :=
    Plan.make?_eq_error_iff.mp (validate_eq_error_iff.mp hfails)
  rw [← List.head?_filter, filter_unresolvedRules, hrules]
  exact head?_unresolvedOf hearlier hclause

/-- Fields of the form that come before a field in the form come before it in a
submission, when the fields are submitted in the order of the form. -/
theorem submitted_before
    {rules : RuleMap} {submission : Submission} {front back : List (String × RuleList)}
    {before after : List (String × Value)} {list : RuleList} {entry : String × Value}
    (horder : rules.keys.Sublist submission.keys)
    (hentries : rules.entries = front ++ (entry.1, list) :: back)
    (hsplit : submission.entries = before ++ entry :: after) :
    ∀ field ∈ front, field.1 ∈ before.map Prod.fst := by
  intro field hfield
  have hkeys : submission.keys = before.map Prod.fst ++ entry.1 :: after.map Prod.fst := by
    simp [FieldMap.keys, hsplit]
  have hnodup : (before.map Prod.fst ++ entry.1 :: after.map Prod.fst).Nodup := by
    rw [← hkeys]
    exact submission.keys_nodup
  have hpair : [field.1, entry.1].Sublist rules.keys := by
    have hfirst : [field].Sublist front := List.singleton_sublist.mpr hfield
    have hsecond : [(entry.1, list)].Sublist ((entry.1, list) :: back) :=
      List.singleton_sublist.mpr List.mem_cons_self
    have hboth := (hfirst.append hsecond).map Prod.fst
    rwa [← hentries] at hboth
  have hsubmitted := hpair.trans horder
  rw [hkeys] at hsubmitted
  exact mem_of_pair_sublist hnodup hsubmitted

/-- When the fields of the form are submitted in the order of the form, with or
without others between them, the first rule that is listed is named. -/
theorem head?_unresolvedRules_of_error
    {checker : Checker} {submission : Submission} {unknown : UnknownRule}
    (horder : checker.rules.keys.Sublist submission.keys)
    (hfails : (checker.validate submission).result = .error unknown) :
    checker.unresolvedRules.head? = some (unknown.key, unknown.rule) := by
  obtain ⟨before, entry, after, earlier, clause, later, hsplit, hrules, hbefore, hearlier,
    hclause, rfl⟩ := Plan.make?_eq_error_iff.mp (validate_eq_error_iff.mp hfails)
  have hnonempty : Plan.rulesOf checker.rules entry.1 ≠ [] := by simp [hrules]
  obtain ⟨front, back, hentries⟩ := Plan.exists_entries_split hnonempty
  have hfront : front.flatMap checker.unresolvedOf = [] := by
    rw [List.flatMap_eq_nil_iff]
    intro field hfield
    apply unresolvedOf_eq_nil
    intro rule hrule
    obtain ⟨early, hearly, hkey⟩ :=
      List.mem_map.mp (submitted_before horder hentries hsplit field hfield)
    refine hbefore early hearly rule ?_
    rw [hkey, Plan.mem_rulesOf_iff]
    exact ⟨field.2, by simp [hentries, hfield], hrule⟩
  change (checker.rules.entries.flatMap checker.unresolvedOf).head? = _
  rw [hentries, List.flatMap_append, hfront, List.nil_append, List.flatMap_cons,
    List.head?_append, hrules, head?_unresolvedOf hearlier hclause]
  rfl

/-! ## Lists and validations agree -/

/-- The list of unresolved rules and the validations agree.  A validation fails
exactly when a submitted field is listed, and then it names the first rule that
is listed for its field, which is the first of the whole list when the fields are
submitted in the order of the form.  Nothing is listed exactly when no
validation fails. -/
theorem validate_fails_as_listed (checker : Checker) :
    (∀ submission : Submission,
      ((∃ unknown, (checker.validate submission).result = .error unknown) ↔
        ∃ pair ∈ checker.unresolvedRules, pair.1 ∈ submission.keys) ∧
      ∀ unknown, (checker.validate submission).result = .error unknown →
        (unknown.key, unknown.rule) ∈ checker.unresolvedRules ∧
        checker.unresolvedRules.find? (fun pair => pair.1 = unknown.key) =
          some (unknown.key, unknown.rule) ∧
        (checker.rules.keys.Sublist submission.keys →
          checker.unresolvedRules.head? = some (unknown.key, unknown.rule))) ∧
    (checker.unresolvedRules = [] ↔
      ∀ submission : Submission, ∃ report, (checker.validate submission).result = .ok report) := by
  refine ⟨?_, ?_, ?_⟩
  · intro submission
    refine ⟨exists_error_iff_unresolved, ?_⟩
    intro unknown hfails
    have hfirst := find?_unresolvedRules_of_error hfails
    exact ⟨List.mem_of_find?_eq_some hfirst, hfirst,
      fun horder => head?_unresolvedRules_of_error horder hfails⟩
  · intro hnone submission
    cases hresult : (checker.validate submission).result with
    | ok report => exact ⟨report, rfl⟩
    | error unknown =>
        obtain ⟨pair, hpair, -⟩ := exists_error_iff_unresolved.mp ⟨unknown, hresult⟩
        simp [hnone] at hpair
  · intro hreports
    rw [List.eq_nil_iff_forall_not_mem]
    intro pair hpair
    -- A submission of the listed field alone fails.
    let submission : Submission := FieldMap.empty.insert pair.1 (.bool true)
    have hsubmitted : pair.1 ∈ submission.keys := by
      simp [submission, FieldMap.keys, FieldMap.insertEntry]
    obtain ⟨unknown, hfails⟩ := exists_error_iff_unresolved.mpr ⟨pair, hpair, hsubmitted⟩
    obtain ⟨report, hreport⟩ := hreports submission
    rw [hreport] at hfails
    cases hfails

/-- A form with two rules that have no validator, one of them with an empty name. -/
def unfinished : Checker where
  form := none
  rules :=
    { entries :=
        [("name", [⟨"required", []⟩]), ("code", [⟨"length", ["3"]⟩, ⟨"unique", []⟩]),
          ("note", [⟨"", []⟩])]
      keys_nodup := by decide }
  registry := Registry.builtins

def inOrder : Submission where
  entries :=
    [("name", .text "x"), ("other", .bool true), ("code", .text "abc"), ("note", .text "")]
  keys_nodup := by decide

theorem validate_unfinished_fails_as_listed :
    unfinished.rules.keys.Sublist inOrder.keys ∧
    (unfinished.validate inOrder).result = .error ⟨"code", "unique"⟩ ∧
    unfinished.unresolvedRules.head? = some ("code", "unique") := by
  have horder : unfinished.rules.keys.Sublist inOrder.keys := by decide
  have hfails : (unfinished.validate inOrder).result = .error ⟨"code", "unique"⟩ := by rfl
  have hlisted := ((validate_fails_as_listed unfinished).1 inOrder).2 ⟨"code", "unique"⟩ hfails
  exact ⟨horder, hfails, hlisted.2.2 horder⟩

end Checker

end FormCheck
